import Mathlib.Data.Nat.Pairing
import Mathlib.Logic.Equiv.List
import Obcsw.Json

/-!
# JSON text

What a program relies on of `parse` and `dump` (`JsonLibrary.Lawful`) : `dump` fails exactly
on a string that is not valid UTF-8 and writes a double that is not finite as null, `parse`
undoes `dump` on the other trees, and accepts valid UTF-8 only.

`ofText` is a library for a run that meets one text. `pinned` is a lawful library with a chosen text
for one tree : it numbers the trees (`Json.code`), so the laws can be met together.
-/

open Exceptions

namespace Json

/-! ## Trees without non-finite doubles -/

mutual

/-- A property of every node of the nulled tree is one of every node of the tree. -/
theorem everywhere_nullify (p : Json → Bool) :
    ∀ t : Json, t.nullify.everywhere p = t.everywhere fun t => p t.nullify
  | null | boolean _ | unsigned _ | integer _ | string _ => rfl
  | float d => by
    unfold nullify
    split <;> simp [everywhere, *]
  | array xs => by
    rw [nullify, everywhere, everywhere, everywhereList_nullify p xs, nullify]
  | object fields => by
    rw [nullify, everywhere, everywhere, everywhereFields_nullify p fields, nullify]

theorem everywhereList_nullify (p : Json → Bool) : ∀ xs : List Json,
    everywhereList p (nullifyList xs) = everywhereList (fun t => p t.nullify) xs
  | [] => rfl
  | x :: xs => by
    rw [nullifyList, everywhereList, everywhereList, everywhere_nullify p x,
      everywhereList_nullify p xs]

theorem everywhereFields_nullify (p : Json → Bool) : ∀ fields : List (String × Json),
    everywhereFields p (nullifyFields fields) = everywhereFields (fun t => p t.nullify) fields
  | [] => rfl
  | (k, v) :: fields => by
    rw [nullifyFields, everywhereFields, everywhereFields, everywhere_nullify p v,
      everywhereFields_nullify p fields]

end

mutual

theorem everywhere_true : ∀ t : Json, t.everywhere (fun _ => true) = true
  | null | boolean _ | unsigned _ | integer _ | float _ | string _ => rfl
  | array xs => everywhereList_true xs
  | object fields => everywhereFields_true fields

theorem everywhereList_true : ∀ xs : List Json, everywhereList (fun _ => true) xs = true
  | [] => rfl
  | x :: xs => by rw [everywhereList, everywhere_true x, everywhereList_true xs, Bool.and_true]

theorem everywhereFields_true : ∀ fields : List (String × Json),
    everywhereFields (fun _ => true) fields = true
  | [] => rfl
  | (_, v) :: fields => by
    rw [everywhereFields, everywhere_true v, everywhereFields_true fields, Bool.and_true]

end

/-- A property of every node of an array is one of the array and of every node of its
elements. -/
theorem everywhere_array (p : Json → Bool) (xs : List Json) :
    (array xs).everywhere p = (p (array xs) && xs.all (everywhere p)) := by
  have hlist : everywhereList p xs = xs.all (everywhere p) := by
    induction xs with
    | nil => rfl
    | cons x xs ih => rw [everywhereList, List.all_cons, ih]
  rw [everywhere, hlist]

theorem keys_nullifyFields : ∀ fields : List (String × Json),
    (nullifyFields fields).map Prod.fst = fields.map Prod.fst
  | [] => rfl
  | (k, v) :: fields => by
    rw [nullifyFields, List.map_cons, List.map_cons, keys_nullifyFields fields]

/-- Nulling keeps the strings. -/
theorem utf8_nullify (t : Json) : t.nullify.utf8 = t.utf8 := by
  unfold utf8
  rw [everywhere_nullify]
  congr 1
  funext t
  cases t with
  | float d => cases h : d.isFinite <;> simp [nullify, h]
  | _ => rfl

/-- Nulling keeps the keys and the integers. -/
theorem canonical_nullify (t : Json) : t.nullify.canonical = t.canonical := by
  unfold canonical
  rw [everywhere_nullify]
  congr 1
  funext t
  cases t with
  | float d => cases h : d.isFinite <;> simp [nullify, h]
  | object fields => simp only [nullify, keys_nullifyFields]
  | _ => rfl

/-- Nulling leaves finite doubles only. -/
theorem finite_nullify (t : Json) : t.nullify.finite = true := by
  refine (everywhere_nullify _ t).trans (Eq.trans ?_ (everywhere_true t))
  congr 1
  funext t
  cases t with
  | float d => cases h : d.isFinite <;> simp [nullify, h]
  | _ => rfl

mutual

/-- A tree whose doubles are finite has none to null. -/
theorem nullify_of_finite : ∀ {t : Json}, t.finite = true → t.nullify = t
  | null, _ | boolean _, _ | unsigned _, _ | integer _, _ | string _, _ => rfl
  | float _, h => if_pos h
  | array _, h => congrArg array (nullifyList_of_finite h)
  | object _, h => congrArg object (nullifyFields_of_finite h)

theorem nullifyList_of_finite : ∀ {xs : List Json}, (array xs).finite = true → nullifyList xs = xs
  | [], _ => rfl
  | x :: xs, h => by
    simp only [finite, everywhere, everywhereList, Bool.true_and, Bool.and_eq_true] at h
    have htail : (array xs).finite = true := h.2
    rw [nullifyList, nullify_of_finite h.1, nullifyList_of_finite htail]

theorem nullifyFields_of_finite : ∀ {fields : List (String × Json)},
    (object fields).finite = true → nullifyFields fields = fields
  | [], _ => rfl
  | (k, v) :: fields, h => by
    simp only [finite, everywhere, everywhereFields, Bool.true_and, Bool.and_eq_true] at h
    have htail : (object fields).finite = true := h.2
    rw [nullifyFields, nullify_of_finite h.1, nullifyFields_of_finite htail]

end

/-! ## Numbering the trees -/

mutual

/-- A number for each tree. -/
def code : Json → ℕ
  | null => Nat.pair 0 0
  | boolean b => Nat.pair 1 (Encodable.encode b)
  | unsigned n => Nat.pair 2 n.toNat
  | integer i => Nat.pair 3 (Encodable.encode i.toInt)
  | float d => Nat.pair 4 d.bits.toNat
  | string s => Nat.pair 5 (Encodable.encode (s.map UInt8.toNat))
  | array xs => Nat.pair 6 (Encodable.encode (codeList xs))
  | object fields => Nat.pair 7 (Encodable.encode (codeFields fields))

def codeList : List Json → List ℕ
  | [] => []
  | x :: xs => code x :: codeList xs

def codeFields : List (String × Json) → List (List ℕ × ℕ)
  | [] => []
  | (k, v) :: fields => (k.toList.map Char.toNat, code v) :: codeFields fields

end

theorem key_inj {k k' : String} (h : k.toList.map Char.toNat = k'.toList.map Char.toNat) :
    k = k' :=
  String.toList_inj.mp (List.map_injective_iff.mpr (fun _ _ => Char.toNat_inj.mp) h)

mutual

theorem code_inj : ∀ {t t' : Json}, code t = code t' → t = t'
  | null, t', h => by cases t' <;> simp_all [code, Nat.pair_eq_pair]
  | boolean b, t', h => by
    cases t' <;> simp only [code, Nat.pair_eq_pair] at h <;> try omega
    rw [Encodable.encode_injective h.2]
  | unsigned n, t', h => by
    cases t' <;> simp only [code, Nat.pair_eq_pair] at h <;> try omega
    rw [UInt64.toNat_inj.mp h.2]
  | integer i, t', h => by
    cases t' <;> simp only [code, Nat.pair_eq_pair] at h <;> try omega
    rw [Int64.toInt_inj.mp (Encodable.encode_injective h.2)]
  | float d, t', h => by
    cases t' <;> simp only [code, Nat.pair_eq_pair] at h <;> try omega
    rw [Binary64.ext (BitVec.eq_of_toNat_eq h.2)]
  | string s, t', h => by
    cases t' <;> simp only [code, Nat.pair_eq_pair] at h <;> try omega
    rw [List.map_injective_iff.mpr (fun _ _ => UInt8.toNat_inj.mp) (Encodable.encode_injective h.2)]
  | array xs, t', h => by
    cases t' <;> simp only [code, Nat.pair_eq_pair] at h <;> try omega
    rw [codeList_inj (Encodable.encode_injective h.2)]
  | object fields, t', h => by
    cases t' <;> simp only [code, Nat.pair_eq_pair] at h <;> try omega
    rw [codeFields_inj (Encodable.encode_injective h.2)]

theorem codeList_inj : ∀ {xs ys : List Json}, codeList xs = codeList ys → xs = ys
  | [], [], _ => rfl
  | [], _ :: _, h => by simp [codeList] at h
  | _ :: _, [], h => by simp [codeList] at h
  | x :: xs, y :: ys, h => by
    rw [codeList, codeList, List.cons.injEq] at h
    rw [code_inj h.1, codeList_inj h.2]

theorem codeFields_inj : ∀ {fs gs : List (String × Json)}, codeFields fs = codeFields gs → fs = gs
  | [], [], _ => rfl
  | [], _ :: _, h => by simp [codeFields] at h
  | _ :: _, [], h => by simp [codeFields] at h
  | (k, v) :: fs, (k', v') :: gs, h => by
    rw [codeFields, codeFields, List.cons.injEq, Prod.mk.injEq] at h
    rw [key_inj h.1.1, code_inj h.1.2, codeFields_inj h.2]

end

end Json

namespace JsonLibrary

variable (L : JsonLibrary)

/-- `json::parse`, with its failure as an exception. -/
def parseThrowing (s : Bytes) : Except CppException Json :=
  (L.parse s).mapError ParseFailure.toException

/-- `j.dump()`, with its failure as an exception. -/
def dumpThrowing (t : Json) : Except CppException Bytes :=
  (L.dump t).mapError fun w => ⟨.json_type_error, w⟩

/-- The library of one text : it parses it to `t`, and writes every tree as it. -/
def ofText (text : Bytes) (t : Json) : JsonLibrary where
  parse s := if s = text then .ok t else .error (.parse_error "syntax error")
  dump _ := .ok text
  undef _ _ := 0

@[simp] theorem parse_ofText (text : Bytes) (t : Json) : (ofText text t).parse text = .ok t :=
  if_pos rfl

theorem parse_ofText_of_ne {text s : Bytes} (t : Json) (h : s ≠ text) :
    (ofText text t).parse s = .error (.parse_error "syntax error") :=
  if_neg h

/-- What a program relies on. -/
structure Lawful : Prop where
  /-- `dump` fails exactly on a string that is not valid UTF-8. -/
  dump_error_iff : ∀ t, (∃ w, L.dump t = .error w) ↔ t.utf8 = false
  /-- `dump` writes a double that is not finite as null. -/
  dump_nullify : ∀ t, L.dump t.nullify = L.dump t
  /-- `parse` undoes `dump`. -/
  parse_dump : ∀ t s, t.canonical = true → t.finite = true → L.dump t = .ok s → L.parse s = .ok t
  /-- `parse` accepts valid UTF-8 only. -/
  parse_utf8 : ∀ s t, L.parse s = .ok t → t.utf8 = true

theorem Lawful.dump_ok_iff {L : JsonLibrary} (hL : L.Lawful) (t : Json) :
    (∃ s, L.dump t = .ok s) ↔ t.utf8 = true := by
  rw [exists_ok_iff, hL.dump_error_iff, Bool.not_eq_false]

/-! ## A lawful library -/

section Pinned

variable (t₀ : Json) (s₀ : Bytes)

open Classical in
/-- The text of a tree : `s₀` for `t₀`, and behind a zero byte its number for another. -/
noncomputable def pinnedText (t : Json) : Bytes :=
  if t = t₀ then s₀ else 0 :: List.replicate t.code 0

open Classical in
/-- The library that writes `t₀` as `s₀`. -/
noncomputable def pinned : JsonLibrary where
  parse s :=
    if h : ∃ t : Json, t.finite = true ∧ t.utf8 = true ∧ pinnedText t₀ s₀ t = s then .ok h.choose
    else .error (.parse_error "syntax error")
  dump t := if t.utf8 = true then .ok (pinnedText t₀ s₀ t.nullify) else .error "invalid UTF-8 byte"
  undef _ _ := 0

variable {t₀ s₀}

theorem pinnedText_self : pinnedText t₀ s₀ t₀ = s₀ :=
  if_pos rfl

theorem pinnedText_inj (hs : s₀.head? ≠ some 0) {t t' : Json}
    (h : pinnedText t₀ s₀ t = pinnedText t₀ s₀ t') : t = t' := by
  unfold pinnedText at h
  split at h <;> split at h
  · subst_vars
    rfl
  · rw [h] at hs
    exact absurd rfl hs
  · rw [← h] at hs
    exact absurd rfl hs
  · have hlen := congrArg List.length h
    simp only [List.length_cons, List.length_replicate, Nat.add_right_cancel_iff] at hlen
    exact Json.code_inj hlen

theorem dump_pinned {t : Json} (ht : t.utf8 = true) :
    (pinned t₀ s₀).dump t = .ok (pinnedText t₀ s₀ t.nullify) :=
  if_pos ht

theorem dump_pinned_self (hf : t₀.finite = true) (hu : t₀.utf8 = true) :
    (pinned t₀ s₀).dump t₀ = .ok s₀ := by
  rw [dump_pinned hu, Json.nullify_of_finite hf, pinnedText_self]

/-- Another text does not parse, unless a zero byte leads it. -/
theorem parse_pinned_of_ne {s : Bytes} (hne : s ≠ s₀) (hs : s.head? ≠ some 0) :
    (pinned t₀ s₀).parse s = .error (.parse_error "syntax error") := by
  refine dif_neg ?_
  rintro ⟨t, -, -, htext⟩
  unfold pinnedText at htext
  split at htext
  · exact hne htext.symm
  · rw [← htext] at hs
    exact hs rfl

theorem pinned_lawful (hs : s₀.head? ≠ some 0) : (pinned t₀ s₀).Lawful where
  dump_error_iff t := by
    cases hu : t.utf8 with
    | true =>
      rw [dump_pinned hu]
      simp
    | false => simp [pinned, hu]
  dump_nullify t := by
    unfold pinned
    simp only [Json.utf8_nullify, Json.nullify_of_finite (Json.finite_nullify t)]
  parse_dump t s _ hf hd := by
    have hu : t.utf8 = true := by
      by_contra hu
      simp [pinned, hu] at hd
    rw [dump_pinned hu, Json.nullify_of_finite hf] at hd
    obtain rfl := Except.ok.inj hd
    have hex : ∃ t' : Json, t'.finite = true ∧ t'.utf8 = true ∧
        pinnedText t₀ s₀ t' = pinnedText t₀ s₀ t := ⟨t, hf, hu, rfl⟩
    unfold pinned
    simp only [dif_pos hex]
    rw [pinnedText_inj hs hex.choose_spec.2.2]
  parse_utf8 s t hp := by
    unfold pinned at hp
    simp only at hp
    split at hp
    · next h =>
      obtain rfl := Except.ok.inj hp
      exact h.choose_spec.2.1
    · cases hp

end Pinned

end JsonLibrary
