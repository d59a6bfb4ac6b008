import Obcsw.TelemetrySerializer

/-!
# Documents the encoder never produced

What `TelemetrySerializer.fromJson` makes of any text.

`leaves` are the sixteen leaf fields, each with its path, its conversion and the field of the
frame it sets, and decoding is reading the leaves (`decode_eq_ok_iff`). A document decodes
when every leaf is present and of a kind that converts (`WellFormed`); otherwise decoding
throws an exception of nlohmann/json, of which `fromJson` translates only `parse_error`
(`oneFailureClass_iff`). The conversions narrow, so of the seven integer leaves a decoded
frame need not have the integers of the document (`integersKept_iff`).
-/

set_option linter.unusedSectionVars false

open Exceptions

namespace Obcsw

namespace TelemetrySerializer

/-! ## The leaves of a frame -/

/-- A conversion `get<T>()`, with the kinds of values that it converts. -/
structure Conversion (α : Type) where
  get : JsonLibrary → Json → Except CppException α
  kind : Json → Bool
  /-- Any other kind gives a `type_error`. -/
  cases : ∀ L j, (kind j = true ∧ ∃ a, get L j = .ok a) ∨
    (kind j = false ∧ ∃ t, get L j = .error (Json.typeError "302" t))

namespace Conversion

def u8 : Conversion UInt8 where
  get := Json.getU8
  kind j := j.isNumber || j.isBoolean
  cases := Json.getU8_cases

def u32 : Conversion UInt32 where
  get := Json.getU32
  kind j := j.isNumber || j.isBoolean
  cases := Json.getU32_cases

def u64 : Conversion UInt64 where
  get := Json.getU64
  kind := Json.isNumber
  cases := Json.getU64_cases

def double : Conversion Binary64 where
  get _ := Json.getDouble
  kind := Json.isNumber
  cases _ := Json.getDouble_cases

def bool : Conversion Bool where
  get _ := Json.getBool
  kind := Json.isBoolean
  cases _ := Json.getBool_cases

def string : Conversion Bytes where
  get _ := Json.getString
  kind := Json.isString
  cases _ := Json.getString_cases

variable {α : Type} (c : Conversion α) {L : JsonLibrary} {j : Json}

theorem kind_iff : c.kind j = true ↔ ∃ a, c.get L j = .ok a := by
  rcases c.cases L j with ⟨hk, ha⟩ | ⟨hk, t, ht⟩
  · exact iff_of_true hk ha
  · rw [hk, ht]
    exact iff_of_false Bool.false_ne_true fun ⟨a, ha⟩ => nomatch ha

theorem error {e : CppException} (h : c.get L j = .error e) : e.isA .json_exception = true := by
  rcases c.cases L j with ⟨-, a, ha⟩ | ⟨-, t, ht⟩
  · rw [ha] at h
    cases h
  · rw [ht] at h
    cases h
    rfl

end Conversion

/-- A leaf of the document : its path, its conversion, and the field it sets. -/
structure Leaf (α : Type) where
  path : List String
  conversion : Conversion α
  field : TelemetryFrame → α

/-- The leaves, in the order they are read. -/
def leaves : List ((α : Type) × Leaf α) :=
  [⟨_, ["frame_id"], .u64, (·.frame_id)⟩,
    ⟨_, ["timestamp_ms"], .u64, (·.timestamp_ms)⟩,
    ⟨_, ["satellite_id"], .string, (·.satellite_id)⟩,
    ⟨_, ["subsystems", "power", "battery_voltage_v"], .double, (·.battery_voltage_v)⟩,
    ⟨_, ["subsystems", "power", "battery_current_ma"], .double, (·.battery_current_ma)⟩,
    ⟨_, ["subsystems", "power", "solar_input_w"], .double, (·.solar_input_w)⟩,
    ⟨_, ["subsystems", "power", "charge_pct"], .u8, (·.charge_pct)⟩,
    ⟨_, ["subsystems", "thermal", "obc_temp_c"], .double, (·.obc_temp_c)⟩,
    ⟨_, ["subsystems", "thermal", "battery_temp_c"], .double, (·.battery_temp_c)⟩,
    ⟨_, ["subsystems", "thermal", "payload_temp_c"], .double, (·.payload_temp_c)⟩,
    ⟨_, ["subsystems", "obc", "cpu_usage_pct"], .u8, (·.cpu_usage_pct)⟩,
    ⟨_, ["subsystems", "obc", "memory_usage_pct"], .u8, (·.memory_usage_pct)⟩,
    ⟨_, ["subsystems", "obc", "uptime_s"], .u64, (·.uptime_s)⟩,
    ⟨_, ["health_flags", "fault_active"], .bool, (·.fault_active)⟩,
    ⟨_, ["health_flags", "safe_mode"], .bool, (·.safe_mode)⟩,
    ⟨_, ["health_flags", "last_fault_code"], .u32, (·.last_fault_code)⟩]

/-- The leaf is in the document and converts to the frame's field. -/
def Leaf.Reads {α : Type} (L : JsonLibrary) (j : Json) (f : TelemetryFrame) (leaf : Leaf α) :
    Prop :=
  ∃ v, j.findPath leaf.path = some v ∧ leaf.conversion.get L v = .ok (leaf.field f)

/-- Every leaf is in the document, with a value of a kind that converts. -/
def WellFormed (j : Json) : Prop :=
  ∀ leaf ∈ leaves, ∃ v, j.findPath leaf.2.path = some v ∧ leaf.2.conversion.kind v = true

section Decode

variable {L : JsonLibrary} {j : Json} {f : TelemetryFrame}

section Paths

variable {k₁ k₂ k₃ : String} {a b v : Json}

theorem findPath_below (ha : j.find k₁ = some a) (ks : List String) :
    j.findPath (k₁ :: ks) = a.findPath ks := by
  rw [Json.findPath_cons, ha, Option.bind_some]

theorem find_of_findPath {ks : List String} (h : j.findPath (k₁ :: ks) = some v) :
    ∃ a, j.find k₁ = some a ∧ a.findPath ks = some v :=
  Option.bind_eq_some_iff.mp h

theorem findPath_one (h : j.find k₁ = some v) : j.findPath [k₁] = some v := by
  rwa [Json.findPath_singleton]

theorem findPath_two (ha : j.find k₁ = some a) (h : a.find k₂ = some v) :
    j.findPath [k₁, k₂] = some v := by
  rw [findPath_below ha, findPath_one h]

theorem findPath_three (ha : j.find k₁ = some a) (hb : a.find k₂ = some b)
    (h : b.find k₃ = some v) : j.findPath [k₁, k₂, k₃] = some v := by
  rw [findPath_below ha, findPath_two hb h]

end Paths

/-- A decoded frame has every leaf from the document. -/
theorem reads_of_decode (h : decode L j = .ok f) : ∀ leaf ∈ leaves, leaf.2.Reads L j f := by
  unfold decode at h
  simp only [bind_eq_ok, Json.atKey_eq_ok, pure_eq_ok] at h
  obtain ⟨_, h₁, _, c₁, _, h₂, _, c₂, _, h₃, _, c₃, h⟩ := h
  obtain ⟨sub, hsub, power, hpower, _, h₄, _, c₄, _, h₅, _, c₅, _, h₆, _, c₆, _, h₇, _, c₇, h⟩ := h
  obtain ⟨sub', hsub', thermal, hthermal, _, h₈, _, c₈, _, h₉, _, c₉, _, h₁₀, _, c₁₀, h⟩ := h
  obtain ⟨sub'', hsub'', obc, hobc, _, h₁₁, _, c₁₁, _, h₁₂, _, c₁₂, _, h₁₃, _, c₁₃, h⟩ := h
  obtain ⟨hf, hhf, _, h₁₄, _, c₁₄, _, h₁₅, _, c₁₅, _, h₁₆, _, c₁₆, h⟩ := h
  obtain rfl := Except.ok.inj h
  simp only [leaves, List.forall_mem_cons]
  exact ⟨⟨_, findPath_one h₁, c₁⟩, ⟨_, findPath_one h₂, c₂⟩, ⟨_, findPath_one h₃, c₃⟩,
    ⟨_, findPath_three hsub hpower h₄, c₄⟩, ⟨_, findPath_three hsub hpower h₅, c₅⟩,
    ⟨_, findPath_three hsub hpower h₆, c₆⟩, ⟨_, findPath_three hsub hpower h₇, c₇⟩,
    ⟨_, findPath_three hsub' hthermal h₈, c₈⟩, ⟨_, findPath_three hsub' hthermal h₉, c₉⟩,
    ⟨_, findPath_three hsub' hthermal h₁₀, c₁₀⟩, ⟨_, findPath_three hsub'' hobc h₁₁, c₁₁⟩,
    ⟨_, findPath_three hsub'' hobc h₁₂, c₁₂⟩, ⟨_, findPath_three hsub'' hobc h₁₃, c₁₃⟩,
    ⟨_, findPath_two hhf h₁₄, c₁₄⟩, ⟨_, findPath_two hhf h₁₅, c₁₅⟩,
    ⟨_, findPath_two hhf h₁₆, c₁₆⟩, fun _ h => (List.not_mem_nil h).elim⟩

/-- A document all of whose leaves convert decodes. -/
theorem decode_of_wellFormed (L : JsonLibrary) (h : WellFormed j) : ∃ f, decode L j = .ok f := by
  unfold WellFormed at h
  simp only [leaves, List.forall_mem_cons, Conversion.kind_iff _ (L := L)] at h
  obtain ⟨⟨_, h₁, _, c₁⟩, ⟨_, h₂, _, c₂⟩, ⟨_, h₃, _, c₃⟩, ⟨_, h₄, _, c₄⟩, ⟨_, h₅, _, c₅⟩,
    ⟨_, h₆, _, c₆⟩, ⟨_, h₇, _, c₇⟩, ⟨_, h₈, _, c₈⟩, ⟨_, h₉, _, c₉⟩, ⟨_, h₁₀, _, c₁₀⟩,
    ⟨_, h₁₁, _, c₁₁⟩, ⟨_, h₁₂, _, c₁₂⟩, ⟨_, h₁₃, _, c₁₃⟩, ⟨_, h₁₄, _, c₁₄⟩,
    ⟨_, h₁₅, _, c₁₅⟩, ⟨_, h₁₆, _, c₁₆⟩, -⟩ := h
  obtain ⟨sub, hsub, hin⟩ := find_of_findPath h₄
  obtain ⟨power, hpower, -⟩ := find_of_findPath hin
  rw [findPath_below hsub] at h₈ h₁₁
  obtain ⟨thermal, hthermal, -⟩ := find_of_findPath h₈
  obtain ⟨obc, hobc, -⟩ := find_of_findPath h₁₁
  obtain ⟨hf, hhf, -⟩ := find_of_findPath h₁₄
  simp only [findPath_below hsub, findPath_below hpower, findPath_below hthermal,
    findPath_below hobc, findPath_below hhf, Json.findPath_singleton] at *
  unfold decode
  simp only [bind_eq_ok, Json.atKey_eq_ok, pure_eq_ok]
  exact ⟨_, _, h₁, _, c₁, _, h₂, _, c₂, _, h₃, _, c₃,
    sub, hsub, power, hpower, _, h₄, _, c₄, _, h₅, _, c₅, _, h₆, _, c₆, _, h₇, _, c₇,
    sub, hsub, thermal, hthermal, _, h₈, _, c₈, _, h₉, _, c₉, _, h₁₀, _, c₁₀,
    sub, hsub, obc, hobc, _, h₁₁, _, c₁₁, _, h₁₂, _, c₁₂, _, h₁₃, _, c₁₃,
    hf, hhf, _, h₁₄, _, c₁₄, _, h₁₅, _, c₁₅, _, h₁₆, _, c₁₆, rfl⟩

/-- The documents that decode. -/
theorem decode_ok_iff (L : JsonLibrary) (j : Json) :
    (∃ f, decode L j = .ok f) ↔ WellFormed j := by
  constructor
  · rintro ⟨f, h⟩ leaf hleaf
    obtain ⟨v, hv, hget⟩ := reads_of_decode h leaf hleaf
    exact ⟨v, hv, (leaf.2.conversion.kind_iff).mpr ⟨_, hget⟩⟩
  · exact decode_of_wellFormed L

/-! ## Failure classes -/

/-- The computation fails with exceptions of nlohmann/json alone. -/
def JsonErrors {α : Type} (x : Except CppException α) : Prop :=
  ∀ e, x = .error e → e.isA .json_exception = true

theorem JsonErrors.bind {α β : Type} {x : Except CppException α} {g : α → Except CppException β}
    (hx : JsonErrors x) (hg : ∀ a, JsonErrors (g a)) : JsonErrors (x >>= g) := by
  cases x with
  | error e => exact fun e' he' => hx e' (congrArg _ (Except.error.inj he'))
  | ok a => exact hg a

theorem jsonErrors_pure {α : Type} (a : α) : JsonErrors (pure a) := by
  rintro e ⟨⟩

theorem jsonErrors_atKey (j : Json) (k : String) : JsonErrors (j.atKey k) :=
  fun _ => Json.atKey_error

theorem jsonErrors_get {α : Type} (c : Conversion α) (L : JsonLibrary) (j : Json) :
    JsonErrors (c.get L j) :=
  fun _ => c.error

/-- Decoding fails at an `at()` or at a `get<T>()`. -/
theorem jsonErrors_decode (L : JsonLibrary) (j : Json) : JsonErrors (decode L j) := by
  unfold decode
  repeat
    first
    | exact jsonErrors_pure _
    | refine (jsonErrors_atKey _ _).bind fun _ => ?_
    | refine (jsonErrors_get .u64 _ _).bind fun _ => ?_
    | refine (jsonErrors_get .u8 _ _).bind fun _ => ?_
    | refine (jsonErrors_get .u32 _ _).bind fun _ => ?_
    | refine (jsonErrors_get .double L _).bind fun _ => ?_
    | refine (jsonErrors_get .bool L _).bind fun _ => ?_
    | refine (jsonErrors_get .string L _).bind fun _ => ?_

/-- A failure of `fromJson` is a `std::runtime_error`. -/
def OneFailureClass (L : JsonLibrary) (s : Bytes) : Prop :=
  ∀ e, fromJson L s = .error e → e.isA .runtime_error = true

/-- The text is malformed, or a document with all its leaves. A text that `parse` gives up on
for a number out of range is neither. -/
def MalformedOrComplete (L : JsonLibrary) (s : Bytes) : Prop :=
  match L.parse s with
  | .error (.parse_error _) => True
  | .error (.out_of_range _) => False
  | .ok j => WellFormed j

theorem fromJson_eq (L : JsonLibrary) (s : Bytes) : fromJson L s =
    match L.parse s with
    | .error (.parse_error w) =>
      .error (runtime_error ("TelemetrySerializer: JSON parse error: " ++ w))
    | .error (.out_of_range w) => .error ⟨.json_out_of_range, w⟩
    | .ok j => decode L j := by
  unfold fromJson JsonLibrary.parseThrowing
  cases L.parse s with
  | error failure => cases failure <;> rfl
  | ok j => rfl

/-- `fromJson` has one failure class exactly on the malformed texts and the complete
documents. -/
theorem oneFailureClass_iff (L : JsonLibrary) (s : Bytes) :
    OneFailureClass L s ↔ MalformedOrComplete L s := by
  unfold OneFailureClass MalformedOrComplete
  rw [fromJson_eq]
  cases L.parse s with
  | error failure =>
    cases failure with
    | parse_error w => exact iff_of_true (fun e he => by cases he; rfl) trivial
    | out_of_range w => exact iff_of_false (fun h => Bool.false_ne_true (h _ rfl)) id
  | ok j =>
    show (∀ e, decode L j = .error e → e.isA .runtime_error = true) ↔ WellFormed j
    rw [← decode_ok_iff L]
    constructor
    · intro h
      cases hdec : decode L j with
      | ok f => exact ⟨f, rfl⟩
      | error e =>
        have hruntime := h e hdec
        rw [CppException.not_runtime_error_of_json (jsonErrors_decode L j e hdec)] at hruntime
        cases hruntime
    · rintro ⟨f, hf⟩ e he
      rw [hf] at he
      cases he

/-- The empty object has none of the leaves. -/
theorem not_oneFailureClass_empty :
    ¬OneFailureClass (.ofText (bytes "\x7b\x7d") (.object [])) (bytes "\x7b\x7d") := by
  intro h
  refine Bool.false_ne_true (h ⟨.json_out_of_range,
    "[json.exception.out_of_range.403] key 'frame_id' not found"⟩ ?_)
  rw [fromJson_eq, JsonLibrary.parse_ofText]
  rfl

/-! ## The integers of a document -/

/-- The integer at a path, if there is one. -/
def integerAt (j : Json) (path : List String) : Option ℤ :=
  (j.findPath path).bind Json.asInteger

/-- A leaf whose field is an unsigned integer, with the width of the field. -/
structure IntegerLeaf where
  path : List String
  width : ℕ
  field : TelemetryFrame → ℕ

def integerLeaves : List IntegerLeaf :=
  [⟨["frame_id"], 64, (·.frame_id.toNat)⟩,
    ⟨["timestamp_ms"], 64, (·.timestamp_ms.toNat)⟩,
    ⟨["subsystems", "power", "charge_pct"], 8, (·.charge_pct.toNat)⟩,
    ⟨["subsystems", "obc", "cpu_usage_pct"], 8, (·.cpu_usage_pct.toNat)⟩,
    ⟨["subsystems", "obc", "memory_usage_pct"], 8, (·.memory_usage_pct.toNat)⟩,
    ⟨["subsystems", "obc", "uptime_s"], 64, (·.uptime_s.toNat)⟩,
    ⟨["health_flags", "last_fault_code"], 32, (·.last_fault_code.toNat)⟩]

/-- Every integer leaf of the document is an integer that fits its field. -/
def IntegersFit (j : Json) : Prop :=
  ∀ leaf ∈ integerLeaves, ∀ v, j.findPath leaf.path = some v → v.IntegerBelow leaf.width

/-- The integers of the document are those of the frame, and of the document that the frame
is written to. -/
structure IntegersKept (L : JsonLibrary) (j : Json) (f : TelemetryFrame) : Prop where
  decoded : ∀ leaf ∈ integerLeaves, integerAt j leaf.path = some (leaf.field f : ℤ)
  encoded : ∃ text written, toJson L f = .ok text ∧ L.parse text = .ok written ∧
    ∀ leaf ∈ integerLeaves, integerAt written leaf.path = integerAt j leaf.path

/-- The text is a complete document with an integer leaf that does not fit. -/
def Narrows (L : JsonLibrary) (s : Bytes) : Prop :=
  ∃ j, L.parse s = .ok j ∧ WellFormed j ∧ ¬IntegersFit j

/-- A written frame has its own integers. -/
theorem integerAt_written (f : TelemetryFrame) : ∀ leaf ∈ integerLeaves,
    integerAt (frameTree .float f).nullify leaf.path = some (leaf.field f : ℤ) := by
  simp only [integerLeaves, List.forall_mem_cons]
  exact ⟨rfl, rfl, rfl, rfl, rfl, rfl, rfl, fun _ h => (List.not_mem_nil h).elim⟩

/-- A leaf that fits and is read has the integer of the field. -/
theorem integerAt_of_read {α : Type} {get : Json → Except CppException α} {path : List String}
    {w n : ℕ} {a : α}
    (hget : ∀ v, v.IntegerBelow w → get v = .ok a → v.asInteger = some (n : ℤ))
    (hread : ∃ v, j.findPath path = some v ∧ get v = .ok a)
    (hfit : ∀ v, j.findPath path = some v → v.IntegerBelow w) :
    integerAt j path = some (n : ℤ) := by
  obtain ⟨v, hv, ha⟩ := hread
  rw [integerAt, hv, Option.bind_some]
  exact hget v (hfit v hv) ha

/-- Integers that fit are the integers of the frame. -/
theorem integerAt_of_fit (h : decode L j = .ok f) (hfit : IntegersFit j) :
    ∀ leaf ∈ integerLeaves, integerAt j leaf.path = some (leaf.field f : ℤ) := by
  have hreads := reads_of_decode h
  have h8 := fun (v : Json) n => @Json.getU8_of_integerBelow L v n
  have h32 := fun (v : Json) n => @Json.getU32_of_integerBelow L v n
  have h64 := fun (v : Json) n => @Json.getU64_of_integerBelow L v n
  unfold IntegersFit at hfit
  simp only [leaves, integerLeaves, List.forall_mem_cons] at hreads hfit ⊢
  obtain ⟨id, time, -, -, -, -, charge, -, -, -, cpu, memory, uptime, -, -, code, -⟩ := hreads
  obtain ⟨fid, ftime, fcharge, fcpu, fmemory, fuptime, fcode, -⟩ := hfit
  exact ⟨integerAt_of_read (h64 · _) id fid, integerAt_of_read (h64 · _) time ftime,
    integerAt_of_read (h8 · _) charge fcharge, integerAt_of_read (h8 · _) cpu fcpu,
    integerAt_of_read (h8 · _) memory fmemory, integerAt_of_read (h64 · _) uptime fuptime,
    integerAt_of_read (h32 · _) code fcode, fun _ h => (List.not_mem_nil h).elim⟩

/-- The field of an integer leaf has the width of the leaf. -/
theorem field_lt (f : TelemetryFrame) : ∀ leaf ∈ integerLeaves, leaf.field f < 2 ^ leaf.width := by
  simp only [integerLeaves, List.forall_mem_cons]
  exact ⟨f.frame_id.toNat_lt, f.timestamp_ms.toNat_lt, f.charge_pct.toNat_lt,
    f.cpu_usage_pct.toNat_lt, f.memory_usage_pct.toNat_lt, f.uptime_s.toNat_lt,
    f.last_fault_code.toNat_lt, fun _ h => (List.not_mem_nil h).elim⟩

/-- The integers of the frame fit. -/
theorem fit_of_integerAt
    (h : ∀ leaf ∈ integerLeaves, integerAt j leaf.path = some (leaf.field f : ℤ)) :
    IntegersFit j := by
  intro leaf hleaf v hv
  have hz := h leaf hleaf
  rw [integerAt, hv, Option.bind_some] at hz
  exact Json.integerBelow_of_nat hz (field_lt f leaf hleaf)

/-- A decoded frame can be written : its `satellite_id` comes from valid UTF-8. -/
theorem toJson_of_decode (hL : L.Lawful) {s : Bytes} (hparse : L.parse s = .ok j)
    (h : decode L j = .ok f) : ∃ text, toJson L f = .ok text := by
  have hutf8 : validUtf8 f.satellite_id = true := by
    have hreads := reads_of_decode h
    simp only [leaves, List.forall_mem_cons] at hreads
    obtain ⟨-, -, ⟨v, hv, hstring⟩, -⟩ := hreads
    rw [Json.findPath_singleton] at hv
    have hvalid := Json.everywhere_find (hL.parse_utf8 s j hparse) hv
    cases v with
    | string text =>
      obtain rfl : text = f.satellite_id := Except.ok.inj hstring
      exact hvalid
    | _ => cases hstring
  exact (toJson_ok_iff hL f).mpr hutf8

/-- Every frame that `fromJson` makes of the text has the integers of its document. -/
def KeepsIntegers (L : JsonLibrary) (s : Bytes) : Prop :=
  ∀ j f, L.parse s = .ok j → fromJson L s = .ok f → IntegersKept L j f

/-- `fromJson` keeps the integers of every document it accepts, exactly when no integer leaf
of a complete document is out of range or not an integer. -/
theorem integersKept_iff (hL : L.Lawful) (s : Bytes) :
    KeepsIntegers L s ↔ ¬Narrows L s := by
  have hdecode : ∀ j, L.parse s = .ok j → fromJson L s = decode L j := by
    intro j hparse
    rw [fromJson_eq, hparse]
  constructor
  · rintro hkept ⟨j, hparse, hcomplete, hfit⟩
    obtain ⟨f, hf⟩ := decode_of_wellFormed L hcomplete
    exact hfit (fit_of_integerAt (hkept j f hparse ((hdecode j hparse).trans hf)).decoded)
  · intro hnot j f hparse hf
    rw [hdecode j hparse] at hf
    have hfit : IntegersFit j := by
      by_contra hfit
      exact hnot ⟨j, hparse, (decode_ok_iff L j).mp ⟨f, hf⟩, hfit⟩
    have hdecoded := integerAt_of_fit hf hfit
    obtain ⟨text, htext⟩ := toJson_of_decode hL hparse hf
    refine ⟨hdecoded, text, _, htext, parse_toJson hL f htext, fun leaf hleaf => ?_⟩
    rw [integerAt_written f leaf hleaf, hdecoded leaf hleaf]

end Decode

/-- The nominal frame as it is written keeps its integers. -/
theorem keepsIntegers_nominalText : KeepsIntegers nominalLibrary nominalText := by
  refine (integersKept_iff nominalLibrary_lawful nominalText).mpr ?_
  rintro ⟨j, hparse, -, hfit⟩
  rw [parse_toJson nominalLibrary_lawful nominalFrame toJson_nominalFrame] at hparse
  obtain rfl := Except.ok.inj hparse
  exact hfit (fit_of_integerAt (integerAt_written nominalFrame))

/-- A frame's document with 300 per cent of charge. -/
def overcharged : Json :=
  .object [
    ("frame_id", .unsigned 1),
    ("health_flags", .object [
      ("fault_active", .boolean false),
      ("last_fault_code", .unsigned 0),
      ("safe_mode", .boolean false)]),
    ("satellite_id", .string (bytes "SAT-1")),
    ("subsystems", .object [
      ("obc", .object [
        ("cpu_usage_pct", .unsigned 45),
        ("memory_usage_pct", .unsigned 50),
        ("uptime_s", .unsigned 3600)]),
      ("power", .object [
        ("battery_current_ma", .unsigned 250),
        ("battery_voltage_v", .unsigned 7),
        ("charge_pct", .unsigned 300),
        ("solar_input_w", .unsigned 8)]),
      ("thermal", .object [
        ("battery_temp_c", .unsigned 22),
        ("obc_temp_c", .unsigned 25),
        ("payload_temp_c", .unsigned 30)])]),
    ("timestamp_ms", .unsigned 1700000000000)]

def overchargedText : Bytes :=
  bytes ("\x7b\"frame_id\":1,\"health_flags\":\x7b\"fault_active\":false,\"last_fault_code\":0,"
    ++ "\"safe_mode\":false\x7d,\"satellite_id\":\"SAT-1\",\"subsystems\":\x7b\"obc\":\x7b"
    ++ "\"cpu_usage_pct\":45,\"memory_usage_pct\":50,\"uptime_s\":3600\x7d,\"power\":\x7b"
    ++ "\"battery_current_ma\":250,\"battery_voltage_v\":7,\"charge_pct\":300,"
    ++ "\"solar_input_w\":8\x7d,\"thermal\":\x7b\"battery_temp_c\":22,\"obc_temp_c\":25,"
    ++ "\"payload_temp_c\":30\x7d\x7d,\"timestamp_ms\":1700000000000\x7d")

/-- A lawful library for the text. -/
noncomputable def overchargedLibrary : JsonLibrary :=
  .pinned overcharged overchargedText

theorem overchargedLibrary_lawful : overchargedLibrary.Lawful :=
  JsonLibrary.pinned_lawful (by decide +kernel)

/-- 300 per cent of charge arrive as 44. -/
theorem not_keepsIntegers_overcharged :
    overchargedLibrary.Lawful ∧ ¬KeepsIntegers overchargedLibrary overchargedText := by
  refine ⟨overchargedLibrary_lawful, fun h => ?_⟩
  have hparse : overchargedLibrary.parse overchargedText = .ok overcharged :=
    overchargedLibrary_lawful.parse_dump overcharged overchargedText (by decide +kernel)
      (by decide +kernel) (JsonLibrary.dump_pinned_self (by decide +kernel) (by decide +kernel))
  obtain ⟨f, hf⟩ : ∃ f, decode overchargedLibrary overcharged = .ok f ∧ f.charge_pct = 44 :=
    ⟨_, rfl, rfl⟩
  have hjson : fromJson overchargedLibrary overchargedText = .ok f := by
    rw [fromJson_eq, hparse]
    exact hf.1
  have hcharge : some (300 : ℤ) = some (f.charge_pct.toNat : ℤ) :=
    (h overcharged f hparse hjson).decoded
      ⟨["subsystems", "power", "charge_pct"], 8, (·.charge_pct.toNat)⟩ (by simp [integerLeaves])
  rw [hf.2] at hcharge
  exact absurd hcharge (by decide)

end TelemetrySerializer

end Obcsw
