import Obcsw.Binary64
import Obcsw.Exceptions

/-!
# JSON trees

The part of nlohmann/json that a program calls : the tree type, element access and the
`get<T>()` conversions, with the class and text of each exception. Keys are strings, and
string values are bytes, since a `std::string` may hold any. An object lists its fields by
ascending key, as the `std::map` behind it does.

`get<T>()` for an arithmetic `T` is a `static_cast` of the stored number, so an integer is
reduced modulo the width of `T`; `getU8` and `getU32` take a boolean as well, `getU64` and
`getDouble` do not.

`JsonLibrary` is what is not modelled : `parse` and `dump` between text and trees, and the
`static_cast` of a double that does not fit its target, which is undefined in C++. A
program takes it as a parameter. `parse` fails with `parse_error` or `out_of_range` and
`dump` with `type_error`, by their types.
-/

open Exceptions

/-- The bytes of a `std::string`. -/
abbrev Bytes := List UInt8

/-- The bytes of a string literal. -/
def bytes (s : String) : Bytes :=
  s.toUTF8.data.toList

/-- Whether the bytes are the UTF-8 encoding of a list of Unicode scalar values. -/
def validUtf8 (s : Bytes) : Bool :=
  (ByteArray.mk s.toArray).validateUTF8

/-- A JSON value, with the three ways nlohmann/json stores a number. -/
inductive Json
  | null
  | boolean (b : Bool)
  | unsigned (n : UInt64)
  | integer (i : Int64)
  | float (d : Binary64)
  | string (s : Bytes)
  | array (xs : List Json)
  | object (fields : List (String × Json))

/-- How `parse` fails. -/
inductive ParseFailure
  | parse_error (what : String)
  | out_of_range (what : String)

def ParseFailure.toException : ParseFailure → CppException
  | .parse_error w => ⟨.json_parse_error, w⟩
  | .out_of_range w => ⟨.json_out_of_range, w⟩

/-- The functions between text and trees, and the platform's undefined conversions. -/
structure JsonLibrary where
  /-- `json::parse`. -/
  parse : Bytes → Except ParseFailure Json
  /-- `j.dump()`; it fails with the text of a `type_error`. -/
  dump : Json → Except String Bytes
  /-- What `static_cast` to an unsigned type of the given width leaves of a double whose
  truncated value does not fit. -/
  undef : ℕ → Binary64 → ℕ

namespace Json

/-- The name of the kind, as the error texts have it. -/
def typeName : Json → String
  | null => "null"
  | boolean _ => "boolean"
  | unsigned _ | integer _ | float _ => "number"
  | string _ => "string"
  | array _ => "array"
  | object _ => "object"

def typeError (id : String) (text : String) : CppException :=
  ⟨.json_type_error, "[json.exception.type_error." ++ id ++ "] " ++ text⟩

/-! ## Element access -/

/-- The value under a key of an object. -/
def find : Json → String → Option Json
  | object fields, k => fields.lookup k
  | _, _ => none

/-- The node that a path of keys leads to. -/
def findPath : List String → Json → Option Json
  | [], j => some j
  | k :: ks, j => (j.find k).bind (findPath ks)

/-- `j.contains(k)` : false on anything but an object. -/
def contains (j : Json) (k : String) : Bool :=
  (j.find k).isSome

/-- `j.at(k)`. -/
def atKey (j : Json) (k : String) : Except CppException Json :=
  match j with
  | object fields =>
    match fields.lookup k with
    | some v => .ok v
    | none => .error ⟨.json_out_of_range,
        "[json.exception.out_of_range.403] key '" ++ k ++ "' not found"⟩
  | j => .error (typeError "304" ("cannot use at() with " ++ j.typeName))

/-- `j.value(k, dflt)` at a type whose conversion is `get`. -/
def valueOr {α : Type} (get : Json → Except CppException α) (j : Json) (k : String) (dflt : α) :
    Except CppException α :=
  match j with
  | object fields =>
    match fields.lookup k with
    | some v => get v
    | none => .ok dflt
  | j => .error (typeError "306" ("cannot use value() with " ++ j.typeName))

/-- Insert a field in key order, or replace the one with that key. -/
def insertField (k : String) (v : Json) : List (String × Json) → List (String × Json)
  | [] => [(k, v)]
  | (k', v') :: fields =>
    if k < k' then (k, v) :: (k', v') :: fields
    else if k = k' then (k, v) :: fields
    else (k', v') :: insertField k v fields

/-- `j[k] = ...` : `assign` computes the element from the one there, null when absent. A
null `j` becomes an object. -/
def modifyKey (k : String) (assign : Json → Except CppException Json) :
    Json → Except CppException Json
  | null => do
    let v ← assign null
    return object [(k, v)]
  | object fields => do
    let v ← assign ((fields.lookup k).getD null)
    return object (insertField k v fields)
  | j => .error (typeError "305"
      ("cannot use operator[] with a string argument with " ++ j.typeName))

/-- `j[k] = v`. -/
def setKey (k : String) (v : Json) : Json → Except CppException Json :=
  modifyKey k fun _ => .ok v

/-- The object of an initializer list of pairs; of two pairs with one key the first stays. -/
def ofPairs (pairs : List (String × Json)) : Json :=
  object (pairs.foldl (fun fields p => if (fields.lookup p.1).isSome then fields
    else insertField p.1 p.2 fields) [])

section Access

variable {α : Type} {j v : Json} {k : String}

theorem atKey_of_find (h : j.find k = some v) : j.atKey k = .ok v := by
  cases j <;> simp_all [find, atKey]

theorem atKey_eq_ok : j.atKey k = .ok v ↔ j.find k = some v := by
  cases j with
  | object fields =>
    rw [atKey, find]
    cases fields.lookup k <;> simp
  | _ => simp [atKey, find]

/-- `at` fails with an exception of nlohmann/json. -/
theorem atKey_error {e : CppException} (h : j.atKey k = .error e) :
    e.isA .json_exception = true := by
  cases j with
  | object fields =>
    rw [atKey] at h
    cases hk : fields.lookup k with
    | none =>
      rw [hk] at h
      cases h
      rfl
    | some w =>
      rw [hk] at h
      cases h
  | _ =>
    cases h
    rfl

theorem findPath_cons (ks : List String) :
    findPath (k :: ks) j = (j.find k).bind (findPath ks) :=
  rfl

@[simp] theorem findPath_singleton : findPath [k] j = j.find k :=
  Option.bind_fun_some _

theorem contains_iff : j.contains k = true ↔ ∃ v, j.find k = some v :=
  Option.isSome_iff_exists

theorem valueOr_of_find (get : Json → Except CppException α) (dflt : α) (h : j.find k = some v) :
    j.valueOr get k dflt = get v := by
  cases j <;> simp_all [find, valueOr]

/-- On an object, an absent key gives the default. -/
theorem valueOr_of_absent (get : Json → Except CppException α) (dflt : α) {k' : String}
    (hobj : j.contains k' = true) (h : j.find k = none) : j.valueOr get k dflt = .ok dflt := by
  cases j with
  | object fields =>
    rw [find] at h
    simp only [valueOr, h]
  | _ => simp [contains, find] at hobj

end Access

/-! ## Conversions -/

/-- `static_cast` of a stored number to an unsigned type of `w` bits, or the error
`get<T>()` throws. -/
def getUnsigned (L : JsonLibrary) (w : ℕ) (takesBool : Bool) : Json → Except CppException ℕ
  | unsigned n => .ok (n.toNat % 2 ^ w)
  | integer i => .ok (i.toInt % 2 ^ w).toNat
  | float d => .ok (d.toUnsigned L.undef w % 2 ^ w)
  | boolean b => if takesBool then .ok b.toNat
      else .error (typeError "302" "type must be number, but is boolean")
  | j => .error (typeError "302" ("type must be number, but is " ++ j.typeName))

/-- `get<uint8_t>()`. -/
def getU8 (L : JsonLibrary) (j : Json) : Except CppException UInt8 :=
  (j.getUnsigned L 8 true).map UInt8.ofNat

/-- `get<uint32_t>()`. -/
def getU32 (L : JsonLibrary) (j : Json) : Except CppException UInt32 :=
  (j.getUnsigned L 32 true).map UInt32.ofNat

/-- `get<uint64_t>()`, the type numbers are stored at : no boolean. -/
def getU64 (L : JsonLibrary) (j : Json) : Except CppException UInt64 :=
  (j.getUnsigned L 64 false).map UInt64.ofNat

/-- `get<double>()`. -/
def getDouble : Json → Except CppException Binary64
  | float d => .ok d
  | unsigned n => .ok (Binary64.ofNat n.toNat)
  | integer i => .ok (Binary64.ofInt i.toInt)
  | j => .error (typeError "302" ("type must be number, but is " ++ j.typeName))

/-- `get<bool>()`. -/
def getBool : Json → Except CppException Bool
  | boolean b => .ok b
  | j => .error (typeError "302" ("type must be boolean, but is " ++ j.typeName))

/-- `get<std::string>()`. -/
def getString : Json → Except CppException Bytes
  | string s => .ok s
  | j => .error (typeError "302" ("type must be string, but is " ++ j.typeName))

/-- `get<json>()`. -/
def getJson (j : Json) : Except CppException Json :=
  .ok j

/-- The kinds `get<uint64_t>()` and `get<double>()` convert. -/
def isNumber : Json → Bool
  | unsigned _ | integer _ | float _ => true
  | _ => false

def isBoolean : Json → Bool
  | boolean _ => true
  | _ => false

def isString : Json → Bool
  | string _ => true
  | _ => false

/-- The integer a node stores, if it stores one. -/
def asInteger : Json → Option ℤ
  | unsigned n => some n.toNat
  | integer i => some i.toInt
  | _ => none

section Conversions

variable (L : JsonLibrary)

/-- A conversion to an unsigned type succeeds on exactly the numbers, and on the booleans
where it takes them; otherwise it throws `type_error`. -/
theorem getUnsigned_cases (w : ℕ) (takesBool : Bool) (j : Json) :
    ((j.isNumber || takesBool && j.isBoolean) = true ∧
      ∃ n, j.getUnsigned L w takesBool = .ok n) ∨
    ((j.isNumber || takesBool && j.isBoolean) = false ∧
      ∃ t, j.getUnsigned L w takesBool = .error (typeError "302" t)) := by
  cases j <;> cases takesBool <;> simp [isNumber, isBoolean, getUnsigned]

theorem map_cases {α : Type} {x : Except CppException ℕ} (f : ℕ → α) {kind : Bool}
    (h : (kind = true ∧ ∃ n, x = .ok n) ∨ (kind = false ∧ ∃ t, x = .error (typeError "302" t))) :
    (kind = true ∧ ∃ a, x.map f = .ok a) ∨
      (kind = false ∧ ∃ t, x.map f = .error (typeError "302" t)) := by
  rcases h with ⟨hk, n, rfl⟩ | ⟨hk, t, rfl⟩
  · exact Or.inl ⟨hk, f n, rfl⟩
  · exact Or.inr ⟨hk, t, rfl⟩

theorem getU8_cases (j : Json) : ((j.isNumber || j.isBoolean) = true ∧ ∃ n, j.getU8 L = .ok n) ∨
    ((j.isNumber || j.isBoolean) = false ∧ ∃ t, j.getU8 L = .error (typeError "302" t)) := by
  simpa only [getU8, Bool.true_and] using map_cases UInt8.ofNat (getUnsigned_cases L 8 true j)

theorem getU32_cases (j : Json) : ((j.isNumber || j.isBoolean) = true ∧ ∃ n, j.getU32 L = .ok n) ∨
    ((j.isNumber || j.isBoolean) = false ∧ ∃ t, j.getU32 L = .error (typeError "302" t)) := by
  simpa only [getU32, Bool.true_and] using map_cases UInt32.ofNat (getUnsigned_cases L 32 true j)

theorem getU64_cases (j : Json) : (j.isNumber = true ∧ ∃ n, j.getU64 L = .ok n) ∨
    (j.isNumber = false ∧ ∃ t, j.getU64 L = .error (typeError "302" t)) := by
  simpa only [getU64, Bool.false_and, Bool.or_false] using
    map_cases UInt64.ofNat (getUnsigned_cases L 64 false j)

/-- What was stored from a narrower unsigned type converts back to it. -/
@[simp] theorem getU8_unsigned (n : UInt8) : (unsigned n.toUInt64).getU8 L = .ok n := by
  have hn : n.toNat % 256 = n.toNat := Nat.mod_eq_of_lt n.toNat_lt
  simp [getU8, getUnsigned, Except.map, hn]

@[simp] theorem getU32_unsigned (n : UInt32) : (unsigned n.toUInt64).getU32 L = .ok n := by
  have hn : n.toNat % 4294967296 = n.toNat := Nat.mod_eq_of_lt n.toNat_lt
  simp [getU32, getUnsigned, Except.map, hn]

@[simp] theorem getU64_unsigned (n : UInt64) : (unsigned n).getU64 L = .ok n := by
  have hn : n.toNat % 18446744073709551616 = n.toNat := Nat.mod_eq_of_lt n.toNat_lt
  simp [getU64, getUnsigned, Except.map, hn]

/-- What converts is of a kind that converts. -/
theorem kind_of_getU8 {j : Json} {n : UInt8} (h : j.getU8 L = .ok n) :
    (j.isNumber || j.isBoolean) = true := by
  rcases getU8_cases L j with ⟨hk, -⟩ | ⟨-, t, ht⟩
  · exact hk
  · rw [ht] at h
    cases h

theorem kind_of_getU32 {j : Json} {n : UInt32} (h : j.getU32 L = .ok n) :
    (j.isNumber || j.isBoolean) = true := by
  rcases getU32_cases L j with ⟨hk, -⟩ | ⟨-, t, ht⟩
  · exact hk
  · rw [ht] at h
    cases h

theorem getDouble_cases (j : Json) : (j.isNumber = true ∧ ∃ d, j.getDouble = .ok d) ∨
    (j.isNumber = false ∧ ∃ t, j.getDouble = .error (typeError "302" t)) := by
  cases j <;> simp [isNumber, getDouble]

theorem getBool_cases (j : Json) : (j.isBoolean = true ∧ ∃ b, j.getBool = .ok b) ∨
    (j.isBoolean = false ∧ ∃ t, j.getBool = .error (typeError "302" t)) := by
  cases j <;> simp [isBoolean, getBool]

theorem getString_cases (j : Json) : (j.isString = true ∧ ∃ s, j.getString = .ok s) ∨
    (j.isString = false ∧ ∃ t, j.getString = .error (typeError "302" t)) := by
  cases j <;> simp [isString, getString]

/-- An integer is reduced modulo the width. -/
theorem getUnsigned_of_asInteger {j : Json} {z : ℤ} (h : j.asInteger = some z) (w : ℕ)
    (takesBool : Bool) : j.getUnsigned L w takesBool = .ok (z % 2 ^ w).toNat := by
  cases j with
  | unsigned n =>
    simp only [asInteger, Option.some.injEq] at h
    subst h
    rw [getUnsigned]
    congr 1
  | integer i =>
    simp only [asInteger, Option.some.injEq] at h
    rw [getUnsigned, h]
  | _ => simp [asInteger] at h

/-! ### Integers that fit -/

/-- The node stores an integer that an unsigned type of `w` bits holds. -/
def IntegerBelow (w : ℕ) (j : Json) : Prop :=
  ∃ z, j.asInteger = some z ∧ 0 ≤ z ∧ z < 2 ^ w

theorem integerBelow_of_nat {j : Json} {w n : ℕ} (h : j.asInteger = some (n : ℤ))
    (hn : n < 2 ^ w) : j.IntegerBelow w :=
  ⟨n, h, Int.natCast_nonneg n, by exact_mod_cast hn⟩

/-- An integer that fits is converted to itself. -/
theorem getUnsigned_of_integerBelow {j : Json} {w : ℕ} (hj : j.IntegerBelow w)
    (takesBool : Bool) : ∃ n : ℕ, n < 2 ^ w ∧ j.asInteger = some (n : ℤ) ∧
      j.getUnsigned L w takesBool = .ok n := by
  obtain ⟨z, hz, hz0, hzw⟩ := hj
  obtain ⟨n, rfl⟩ := Int.eq_ofNat_of_zero_le hz0
  refine ⟨n, by exact_mod_cast hzw, hz, ?_⟩
  rw [getUnsigned_of_asInteger L hz, Int.emod_eq_of_lt hz0 hzw, Int.toNat_natCast]

theorem getU8_of_integerBelow {j : Json} {n : UInt8} (hj : j.IntegerBelow 8)
    (h : j.getU8 L = .ok n) : j.asInteger = some (n.toNat : ℤ) := by
  obtain ⟨m, hm, hz, hget⟩ := getUnsigned_of_integerBelow L hj true
  rw [getU8, hget] at h
  obtain rfl := Except.ok.inj h
  rw [hz, UInt8.toNat_ofNat_of_lt' hm]

theorem getU32_of_integerBelow {j : Json} {n : UInt32} (hj : j.IntegerBelow 32)
    (h : j.getU32 L = .ok n) : j.asInteger = some (n.toNat : ℤ) := by
  obtain ⟨m, hm, hz, hget⟩ := getUnsigned_of_integerBelow L hj true
  rw [getU32, hget] at h
  obtain rfl := Except.ok.inj h
  rw [hz, UInt32.toNat_ofNat_of_lt' hm]

theorem getU64_of_integerBelow {j : Json} {n : UInt64} (hj : j.IntegerBelow 64)
    (h : j.getU64 L = .ok n) : j.asInteger = some (n.toNat : ℤ) := by
  obtain ⟨m, hm, hz, hget⟩ := getUnsigned_of_integerBelow L hj false
  rw [getU64, hget] at h
  obtain rfl := Except.ok.inj h
  rw [hz, UInt64.toNat_ofNat_of_lt' hm]

end Conversions

/-! ## Properties of every node -/

mutual

/-- Whether every node of the tree satisfies `p`. -/
def everywhere (p : Json → Bool) : Json → Bool
  | array xs => p (array xs) && everywhereList p xs
  | object fields => p (object fields) && everywhereFields p fields
  | j => p j

def everywhereList (p : Json → Bool) : List Json → Bool
  | [] => true
  | x :: xs => everywhere p x && everywhereList p xs

def everywhereFields (p : Json → Bool) : List (String × Json) → Bool
  | [] => true
  | (_, v) :: fields => everywhere p v && everywhereFields p fields

end

/-- Every string is valid UTF-8. -/
def utf8 : Json → Bool :=
  everywhere fun
    | string s => validUtf8 s
    | _ => true

/-- Every double is finite. -/
def finite : Json → Bool :=
  everywhere fun
    | float d => d.isFinite
    | _ => true

/-- Keys ascend, and the integers stored signed are the negative ones : the trees that
`parse` builds from a text without a negative zero. -/
def canonical : Json → Bool :=
  everywhere fun
    | object fields => decide ((fields.map Prod.fst).Pairwise (· < ·))
    | integer i => decide (i < 0)
    | _ => true

mutual

/-- The tree with a null in place of every double that is not finite. -/
def nullify : Json → Json
  | float d => if d.isFinite then float d else null
  | array xs => array (nullifyList xs)
  | object fields => object (nullifyFields fields)
  | j => j

def nullifyList : List Json → List Json
  | [] => []
  | x :: xs => nullify x :: nullifyList xs

def nullifyFields : List (String × Json) → List (String × Json)
  | [] => []
  | (k, v) :: fields => (k, nullify v) :: nullifyFields fields

end

/-- A field of a tree all of whose nodes satisfy `p` is such a tree. -/
theorem everywhere_find {p : Json → Bool} {j v : Json} {k : String}
    (h : j.everywhere p = true) (hf : j.find k = some v) : v.everywhere p = true := by
  cases j with
  | object fields =>
    have hfields : everywhereFields p fields = true := by
      rw [everywhere, Bool.and_eq_true] at h
      exact h.2
    rw [find] at hf
    clear h
    induction fields with
    | nil => simp at hf
    | cons field fields ih =>
      obtain ⟨k', v'⟩ := field
      rw [everywhereFields, Bool.and_eq_true] at hfields
      rw [List.lookup_cons] at hf
      split at hf
      · obtain rfl := Option.some.inj hf
        exact hfields.1
      · exact ih hf hfields.2
  | _ => simp [find] at hf

end Json
