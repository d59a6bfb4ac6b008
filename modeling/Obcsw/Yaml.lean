import Obcsw.Json

/-!
# YAML documents

The part of yaml-cpp that a program calls : the document tree, `node[key]`, and
`as<T>(fallback)`. A node that `node[key]` finds is `some`, an undefined node is `none`; a
null is a defined node. Indexing a null or a sequence by a string gives an undefined node,
indexing a scalar throws `BadSubscript` (its text here leaves out the position in the file).
Of two equal keys the first counts. `as<T>(fallback)` is the converted node, or the fallback
when the node is undefined or does not convert (`asOr`).

`YamlLibrary` is what is not modelled : reading a file into a document, and the conversions
of scalar texts to numbers. All its exceptions derive from `std::runtime_error`
(`YamlFailure.isA_runtime_error`).

Documents are also edited here, to compare what a program makes of two of them : `setPath`
and `removePath` change what stands at a path of keys, and `findPath` of a changed document
is told by where the two paths lie (`findPath_setPath_append`, `findPath_setPath_beside`
and their companions).
-/

set_option linter.unusedSectionVars false

open Exceptions

/-- The bytes of a string literal determine it. -/
theorem bytes_injective : Function.Injective bytes := by
  intro s t h
  unfold bytes at h
  exact String.toByteArray_inj.mp (ByteArray.ext (Array.toList_inj.mp h))

/-- A YAML node. A scalar is its text; every scalar that yaml-cpp reads as a null is `null`. -/
inductive Yaml
  | null
  | scalar (text : Bytes)
  | sequence (xs : List Yaml)
  | map (entries : List (Yaml × Yaml))

/-- How `YAML::LoadFile` fails, with what `what()` returns. -/
inductive YamlFailure
  | bad_file (what : String)
  | parser_exception (what : String)
  | exception (what : String)

def YamlFailure.toException : YamlFailure → CppException
  | .bad_file w => ⟨.yaml_bad_file, w⟩
  | .parser_exception w => ⟨.yaml_parser_exception, w⟩
  | .exception w => ⟨.yaml_exception, w⟩

theorem YamlFailure.isA_runtime_error (e : YamlFailure) :
    e.toException.isA .runtime_error = true := by
  cases e <;> rfl

/-- Reading files, and the conversions of scalar texts. -/
structure YamlLibrary where
  /-- `YAML::LoadFile`. -/
  loadFile : String → Except YamlFailure Yaml
  /-- What `as<std::string>` makes of a null, if it converts one. -/
  nullString : Option Bytes
  toU8 : Bytes → Option UInt8
  toU16 : Bytes → Option UInt16
  toU32 : Bytes → Option UInt32
  toDouble : Bytes → Option Binary64

/-- `YAML::LoadFile`, with its failures as exceptions. -/
def YamlLibrary.loadThrowing (L : YamlLibrary) (path : String) : Except CppException Yaml :=
  (L.loadFile path).mapError YamlFailure.toException

/-- The library with `d` in every file. -/
def YamlLibrary.serving (L : YamlLibrary) (d : Yaml) : YamlLibrary :=
  { L with loadFile := fun _ => .ok d }

namespace Yaml

/-! ## Element access -/

/-- Whether a key of a mapping is the scalar `k`. -/
def isKey (k : String) : Yaml → Bool
  | scalar t => decide (t = bytes k)
  | _ => false

/-- The value of the first entry under `k`. -/
def findEntry (k : String) : List (Yaml × Yaml) → Option Yaml
  | [] => none
  | (key, v) :: entries => if key.isKey k then some v else findEntry k entries

def find (k : String) : Yaml → Option Yaml
  | map entries => findEntry k entries
  | _ => none

/-- `node[k]`. -/
def index (k : String) : Yaml → Except CppException (Option Yaml)
  | scalar _ => .error ⟨.yaml_bad_subscript, "operator[] call on a scalar (key: \"" ++ k ++ "\")"⟩
  | n => .ok (n.find k)

/-- `node.as<T>(fallback)`, for a type that `decode` converts to. -/
def asOr {α : Type} (decode : Yaml → Option α) (fallback : α) (node : Option Yaml) : α :=
  (node.bind decode).getD fallback

/-- The node a path of keys leads to. -/
def findPath : List String → Yaml → Option Yaml
  | [], n => some n
  | k :: ks, n => (n.find k).bind (findPath ks)

/-- What may not be indexed. -/
def isScalar : Yaml → Bool
  | scalar _ => true
  | _ => false

section Access

variable {α : Type} (decode : Yaml → Option α) (fallback : α) (k : String) (n : Yaml)

theorem index_eq : n.index k = if n.isScalar then
    .error ⟨.yaml_bad_subscript, "operator[] call on a scalar (key: \"" ++ k ++ "\")"⟩
    else .ok (n.find k) := by
  cases n <;> rfl

@[simp] theorem asOr_none : asOr decode fallback none = fallback :=
  rfl

@[simp] theorem asOr_some : asOr decode fallback (some n) = (decode n).getD fallback :=
  rfl

@[simp] theorem findPath_nil : findPath [] n = some n :=
  rfl

theorem findPath_cons (ks : List String) :
    findPath (k :: ks) n = (n.find k).bind (findPath ks) :=
  rfl

@[simp] theorem findPath_singleton : findPath [k] n = n.find k :=
  Option.bind_fun_some _

end Access

/-! ## Conversions -/

section Conversions

/-- A conversion of scalar texts, on nodes. -/
def ofScalar {α : Type} (convert : Bytes → Option α) : Yaml → Option α
  | scalar t => convert t
  | _ => none

variable (L : YamlLibrary)

/-- `convert<std::string>`. -/
def string : Yaml → Option Bytes
  | scalar t => some t
  | null => L.nullString
  | _ => none

/-- `convert<uint8_t>`. -/
def u8 : Yaml → Option UInt8 :=
  ofScalar L.toU8

/-- `convert<uint16_t>`. -/
def u16 : Yaml → Option UInt16 :=
  ofScalar L.toU16

/-- `convert<uint32_t>`. -/
def u32 : Yaml → Option UInt32 :=
  ofScalar L.toU32

/-- `convert<double>`. -/
def double : Yaml → Option Binary64 :=
  ofScalar L.toDouble

end Conversions

/-! ## Editing documents -/

def entries : Yaml → List (Yaml × Yaml)
  | map es => es
  | _ => []

/-- Give the first entry under `k` another value, or append one. -/
def putEntry (k : String) (v : Yaml) : List (Yaml × Yaml) → List (Yaml × Yaml)
  | [] => [(scalar (bytes k), v)]
  | (key, v') :: es => if key.isKey k then (key, v) :: es else (key, v') :: putEntry k v es

/-- Remove every entry under `k`. -/
def eraseEntry (k : String) (es : List (Yaml × Yaml)) : List (Yaml × Yaml) :=
  es.filter fun e => !e.1.isKey k

/-- Put `v` at a path of `n`. What is on the way and is not a mapping becomes one. -/
def setPath : List String → Yaml → Yaml → Yaml
  | [], _, v => v
  | k :: ks, n, v => map (putEntry k (setPath ks ((n.find k).getD null) v) n.entries)

/-- Remove the entry a path leads to, if there is one. -/
def removePath : List String → Yaml → Yaml
  | [k], map es => map (eraseEntry k es)
  | k :: ks, map es =>
    match findEntry k es with
    | none => map es
    | some v => map (putEntry k (removePath ks v) es)
  | _, n => n

section Entries

variable {k k' : String} {v : Yaml}

theorem isKey_eq_false {key : Yaml} (hne : k ≠ k') (h : key.isKey k = true) :
    key.isKey k' = false := by
  cases key with
  | scalar t =>
    simp only [isKey, decide_eq_true_eq, decide_eq_false_iff_not] at h ⊢
    rw [h]
    exact fun he => hne (bytes_injective he)
  | _ => rfl

theorem findEntry_putEntry_self : ∀ es : List (Yaml × Yaml),
    findEntry k (putEntry k v es) = some v
  | [] => by simp [putEntry, findEntry, isKey]
  | (key, v') :: es => by
    rw [putEntry]
    split
    · rename_i hk
      rw [findEntry, if_pos hk]
    · rename_i hk
      rw [findEntry, if_neg hk, findEntry_putEntry_self es]

theorem findEntry_putEntry_of_ne (hne : k ≠ k') : ∀ es : List (Yaml × Yaml),
    findEntry k' (putEntry k v es) = findEntry k' es
  | [] => by
    have hk : (scalar (bytes k)).isKey k' = false :=
      isKey_eq_false hne (by simp [isKey])
    simp [putEntry, findEntry, hk]
  | (key, v') :: es => by
    rw [putEntry]
    split
    · rename_i hk
      simp [findEntry, isKey_eq_false hne hk]
    · simp only [findEntry, findEntry_putEntry_of_ne hne es]

theorem findEntry_eraseEntry_self : ∀ es : List (Yaml × Yaml),
    findEntry k (eraseEntry k es) = none
  | [] => rfl
  | (key, v') :: es => by
    have ih := findEntry_eraseEntry_self es
    unfold eraseEntry at ih ⊢
    by_cases hk : key.isKey k = true
    · simpa [hk] using ih
    · simpa [hk, findEntry] using ih

theorem findEntry_eraseEntry_of_ne (hne : k ≠ k') : ∀ es : List (Yaml × Yaml),
    findEntry k' (eraseEntry k es) = findEntry k' es
  | [] => rfl
  | (key, v') :: es => by
    have ih := findEntry_eraseEntry_of_ne hne es
    unfold eraseEntry at ih ⊢
    by_cases hk : key.isKey k = true
    · simpa [hk, findEntry, isKey_eq_false hne hk] using ih
    · rw [List.filter_cons_of_pos (by simpa using hk), findEntry, findEntry, ih]

theorem findEntry_entries (k : String) (n : Yaml) : findEntry k n.entries = n.find k := by
  cases n <;> rfl

end Entries

/-! ### What a changed document holds -/

section SetPath

variable {k k' : String} {ks : List String} {v n : Yaml}

theorem find_setPath_self :
    (setPath (k :: ks) n v).find k = some (setPath ks ((n.find k).getD null) v) := by
  rw [setPath, find, findEntry_putEntry_self]

theorem find_setPath_of_ne (hne : k ≠ k') : (setPath (k :: ks) n v).find k' = n.find k' := by
  rw [setPath, find, findEntry_putEntry_of_ne hne, findEntry_entries]

/-- Below the path stands the new value. -/
theorem findPath_setPath_append (v : Yaml) : ∀ (p q : List String) (n : Yaml),
    findPath (p ++ q) (setPath p n v) = findPath q v
  | [], _, _ => rfl
  | k :: p, q, n => by
    rw [List.cons_append, findPath_cons, find_setPath_self, Option.bind_some]
    exact findPath_setPath_append v p q _

/-- On the way to the path stand mappings. -/
theorem findPath_setPath_before (v : Yaml) (k : String) (r : List String) :
    ∀ (q : List String) (n : Yaml), ∃ es, findPath q (setPath (q ++ k :: r) n v) = some (map es)
  | [], n => ⟨_, rfl⟩
  | k' :: q, n => by
    rw [List.cons_append, findPath_cons, find_setPath_self, Option.bind_some]
    exact findPath_setPath_before v k r q _

/-- Beside the path nothing changes. -/
theorem findPath_setPath_beside (v : Yaml) : ∀ {p q : List String} (n : Yaml),
    ¬p <+: q → ¬q <+: p → findPath q (setPath p n v) = findPath q n
  | [], q, _, hp, _ => absurd (List.nil_prefix) hp
  | _ :: _, [], _, _, hq => absurd (List.nil_prefix) hq
  | k :: p, k' :: q, n, hp, hq => by
    rw [findPath_cons, findPath_cons]
    by_cases hk : k = k'
    · subst hk
      rw [List.prefix_cons_inj] at hp hq
      rw [find_setPath_self, Option.bind_some, findPath_setPath_beside v _ hp hq]
      cases n.find k with
      | some c => rfl
      | none =>
        cases q with
        | nil => exact absurd List.nil_prefix hq
        | cons k'' q => rfl
    · rw [find_setPath_of_ne hk]

end SetPath

section RemovePath

variable {k k' : String} {ks : List String} {n : Yaml}

theorem find_removePath_last : (removePath [k] n).find k = none := by
  cases n <;> first | rfl | exact findEntry_eraseEntry_self _

theorem find_removePath_self (hks : ks ≠ []) :
    (removePath (k :: ks) n).find k = (n.find k).map (removePath ks) := by
  obtain ⟨k₂, ks, rfl⟩ := List.exists_cons_of_ne_nil hks
  cases n with
  | map es =>
    simp only [removePath, find]
    cases hf : findEntry k es with
    | none => exact hf
    | some v => exact findEntry_putEntry_self es
  | _ => rfl

theorem find_removePath_of_ne (hne : k ≠ k') : (removePath (k :: ks) n).find k' = n.find k' := by
  cases n with
  | map es =>
    cases ks with
    | nil => exact findEntry_eraseEntry_of_ne hne es
    | cons k₂ ks =>
      simp only [removePath]
      cases findEntry k es with
      | none => rfl
      | some v => exact findEntry_putEntry_of_ne hne es
  | _ => cases ks <;> rfl

theorem isScalar_removePath (p : List String) (n : Yaml) :
    (removePath p n).isScalar = n.isScalar := by
  cases n with
  | map es =>
    match p with
    | [] => rfl
    | [k] => rfl
    | k :: k₂ :: ks =>
      simp only [removePath]
      cases findEntry k es <;> rfl
  | _ => rcases p with _ | ⟨_, _ | _⟩ <;> rfl

/-- Below the path nothing is left. -/
theorem findPath_removePath_append : ∀ {p : List String} (q : List String) (n : Yaml),
    p ≠ [] → findPath (p ++ q) (removePath p n) = none
  | [], _, _, hp => absurd rfl hp
  | [k], q, n, _ => by
    rw [List.cons_append, findPath_cons, find_removePath_last, Option.bind_none]
  | k :: k₂ :: p, q, n, _ => by
    rw [List.cons_append, findPath_cons, find_removePath_self (List.cons_ne_nil k₂ p)]
    cases n.find k with
    | none => rfl
    | some c => exact findPath_removePath_append q c (List.cons_ne_nil k₂ p)

/-- Beside the path nothing changes. -/
theorem findPath_removePath_beside : ∀ {p q : List String} (n : Yaml),
    ¬p <+: q → ¬q <+: p → findPath q (removePath p n) = findPath q n
  | [], q, _, hp, _ => absurd (List.nil_prefix) hp
  | _ :: _, [], _, _, hq => absurd (List.nil_prefix) hq
  | k :: p, k' :: q, n, hp, hq => by
    rw [findPath_cons, findPath_cons]
    by_cases hk : k = k'
    · subst hk
      rw [List.prefix_cons_inj] at hp hq
      have hne : p ≠ [] := by
        rintro rfl
        exact hp List.nil_prefix
      rw [find_removePath_self hne]
      cases n.find k with
      | none => rfl
      | some c => exact findPath_removePath_beside c hp hq
    · rw [find_removePath_of_ne hk]

/-- Outside the path nothing becomes a scalar, or stops being one. -/
theorem isScalar_findPath_removePath : ∀ {p q : List String} (n : Yaml), ¬p <+: q →
    (findPath q (removePath p n)).map isScalar = (findPath q n).map isScalar
  | [], q, _, hp => absurd (List.nil_prefix) hp
  | k :: p, [], n, _ => by
    rw [findPath_nil, findPath_nil, Option.map_some, Option.map_some, isScalar_removePath]
  | k :: p, k' :: q, n, hp => by
    rw [findPath_cons, findPath_cons]
    by_cases hk : k = k'
    · subst hk
      rw [List.prefix_cons_inj] at hp
      have hne : p ≠ [] := by
        rintro rfl
        exact hp List.nil_prefix
      rw [find_removePath_self hne]
      cases n.find k with
      | none => rfl
      | some c => exact isScalar_findPath_removePath c hp
    · rw [find_removePath_of_ne hk]

end RemovePath

end Yaml
