import Mathlib.Data.String.Basic
import Obcsw.JsonText
import Obcsw.Records

/-!
# TelemetrySerializer

`TelemetryFrame` to JSON text and back. `toTree` builds the tree as the assignments of
`toJson` do, and `decode` is the part of `fromJson` after the parse. `toTree_eq` gives the
tree in key order, from which the round trip is read off : a frame comes back equal, or,
when one of its doubles is not finite and was written as null, decoding throws.
-/

open Exceptions

namespace Obcsw

namespace TelemetrySerializer

/-! ## The code -/

/-- The tree `toJson` assigns together. -/
def toTree (f : TelemetryFrame) : Except CppException Json := do
  let j ← Json.setKey "frame_id" (.unsigned f.frame_id) .null
  let j ← Json.setKey "timestamp_ms" (.unsigned f.timestamp_ms) j
  let j ← Json.setKey "satellite_id" (.string f.satellite_id) j
  let j ← Json.modifyKey "subsystems" (Json.setKey "power" (.ofPairs [
    ("battery_voltage_v", .float f.battery_voltage_v),
    ("battery_current_ma", .float f.battery_current_ma),
    ("solar_input_w", .float f.solar_input_w),
    ("charge_pct", .unsigned f.charge_pct.toUInt64)])) j
  let j ← Json.modifyKey "subsystems" (Json.setKey "thermal" (.ofPairs [
    ("obc_temp_c", .float f.obc_temp_c),
    ("battery_temp_c", .float f.battery_temp_c),
    ("payload_temp_c", .float f.payload_temp_c)])) j
  let j ← Json.modifyKey "subsystems" (Json.setKey "obc" (.ofPairs [
    ("cpu_usage_pct", .unsigned f.cpu_usage_pct.toUInt64),
    ("memory_usage_pct", .unsigned f.memory_usage_pct.toUInt64),
    ("uptime_s", .unsigned f.uptime_s)])) j
  Json.setKey "health_flags" (.ofPairs [
    ("fault_active", .boolean f.fault_active),
    ("safe_mode", .boolean f.safe_mode),
    ("last_fault_code", .unsigned f.last_fault_code.toUInt64)]) j

/-- Serialize a frame. -/
def toJson (L : JsonLibrary) (f : TelemetryFrame) : Except CppException Bytes := do
  let j ← toTree f
  L.dumpThrowing j

/-- The part of `fromJson` after the parse. -/
def decode (L : JsonLibrary) (j : Json) : Except CppException TelemetryFrame := do
  let frame_id ← (← j.atKey "frame_id").getU64 L
  let timestamp_ms ← (← j.atKey "timestamp_ms").getU64 L
  let satellite_id ← (← j.atKey "satellite_id").getString
  let power ← (← j.atKey "subsystems").atKey "power"
  let battery_voltage_v ← (← power.atKey "battery_voltage_v").getDouble
  let battery_current_ma ← (← power.atKey "battery_current_ma").getDouble
  let solar_input_w ← (← power.atKey "solar_input_w").getDouble
  let charge_pct ← (← power.atKey "charge_pct").getU8 L
  let thermal ← (← j.atKey "subsystems").atKey "thermal"
  let obc_temp_c ← (← thermal.atKey "obc_temp_c").getDouble
  let battery_temp_c ← (← thermal.atKey "battery_temp_c").getDouble
  let payload_temp_c ← (← thermal.atKey "payload_temp_c").getDouble
  let obc ← (← j.atKey "subsystems").atKey "obc"
  let cpu_usage_pct ← (← obc.atKey "cpu_usage_pct").getU8 L
  let memory_usage_pct ← (← obc.atKey "memory_usage_pct").getU8 L
  let uptime_s ← (← obc.atKey "uptime_s").getU64 L
  let hf ← j.atKey "health_flags"
  let fault_active ← (← hf.atKey "fault_active").getBool
  let safe_mode ← (← hf.atKey "safe_mode").getBool
  let last_fault_code ← (← hf.atKey "last_fault_code").getU32 L
  return { frame_id, timestamp_ms, satellite_id, battery_voltage_v, battery_current_ma,
           solar_input_w, charge_pct, obc_temp_c, battery_temp_c, payload_temp_c, cpu_usage_pct,
           memory_usage_pct, uptime_s, fault_active, safe_mode, last_fault_code }

/-- Deserialize a frame. -/
def fromJson (L : JsonLibrary) (json_str : Bytes) : Except CppException TelemetryFrame := do
  let j ← rethrowing .json_parse_error
    (fun e => runtime_error ("TelemetrySerializer: JSON parse error: " ++ e.what))
    (L.parseThrowing json_str)
  decode L j

/-- Serialize several frames as one array. -/
def batchToJson (L : JsonLibrary) (frames : List TelemetryFrame) : Except CppException Bytes := do
  let arr ← frames.mapM fun f => do L.parseThrowing (← toJson L f)
  L.dumpThrowing (.array arr)

/-! ## The tree -/

/-- The tree of a frame in key order, with `leaf` at its doubles. -/
def frameTree (leaf : Binary64 → Json) (f : TelemetryFrame) : Json :=
  .object [
    ("frame_id", .unsigned f.frame_id),
    ("health_flags", .object [
      ("fault_active", .boolean f.fault_active),
      ("last_fault_code", .unsigned f.last_fault_code.toUInt64),
      ("safe_mode", .boolean f.safe_mode)]),
    ("satellite_id", .string f.satellite_id),
    ("subsystems", .object [
      ("obc", .object [
        ("cpu_usage_pct", .unsigned f.cpu_usage_pct.toUInt64),
        ("memory_usage_pct", .unsigned f.memory_usage_pct.toUInt64),
        ("uptime_s", .unsigned f.uptime_s)]),
      ("power", .object [
        ("battery_current_ma", leaf f.battery_current_ma),
        ("battery_voltage_v", leaf f.battery_voltage_v),
        ("charge_pct", .unsigned f.charge_pct.toUInt64),
        ("solar_input_w", leaf f.solar_input_w)]),
      ("thermal", .object [
        ("battery_temp_c", leaf f.battery_temp_c),
        ("obc_temp_c", leaf f.obc_temp_c),
        ("payload_temp_c", leaf f.payload_temp_c)])]),
    ("timestamp_ms", .unsigned f.timestamp_ms)]

theorem toTree_eq (f : TelemetryFrame) : toTree f = .ok (frameTree .float f) := by
  simp [-String.lt_iff_ltb, toTree, frameTree, Json.setKey, Json.modifyKey, Json.ofPairs,
    Json.insertField, List.lookup_cons]

/-- The doubles of a frame. -/
def doubles (f : TelemetryFrame) : List Binary64 :=
  [f.battery_voltage_v, f.battery_current_ma, f.solar_input_w, f.obc_temp_c, f.battery_temp_c,
    f.payload_temp_c]

theorem canonical_frameTree (f : TelemetryFrame) : (frameTree .float f).canonical = true := by
  simp [-String.lt_iff_ltb, frameTree, Json.canonical, Json.everywhere, Json.everywhereFields]

theorem utf8_frameTree (f : TelemetryFrame) :
    (frameTree .float f).utf8 = validUtf8 f.satellite_id := by
  simp [frameTree, Json.utf8, Json.everywhere, Json.everywhereFields]

theorem finite_frameTree (f : TelemetryFrame) :
    (frameTree .float f).finite = true ↔ ∀ d ∈ doubles f, d.isFinite = true := by
  simp [frameTree, doubles, Json.finite, Json.everywhere, Json.everywhereFields, and_assoc,
    and_left_comm]

theorem nullify_frameTree (f : TelemetryFrame) :
    (frameTree .float f).nullify = frameTree (fun d => (Json.float d).nullify) f :=
  rfl

/-! ## Decoding a written frame -/

section Decode

variable (L : JsonLibrary)

/-- Decoding the tree of a frame reads its doubles where they were put, and the other fields
as they were. -/
theorem decode_frameTree (leaf : Binary64 → Json) (f : TelemetryFrame) :
    decode L (frameTree leaf f) = do
      let battery_voltage_v ← (leaf f.battery_voltage_v).getDouble
      let battery_current_ma ← (leaf f.battery_current_ma).getDouble
      let solar_input_w ← (leaf f.solar_input_w).getDouble
      let obc_temp_c ← (leaf f.obc_temp_c).getDouble
      let battery_temp_c ← (leaf f.battery_temp_c).getDouble
      let payload_temp_c ← (leaf f.payload_temp_c).getDouble
      return { f with battery_voltage_v, battery_current_ma, solar_input_w, obc_temp_c,
                      battery_temp_c, payload_temp_c } := by
  simp [decode, frameTree, Json.atKey, List.lookup_cons, Json.getString, Json.getBool]

/-- What `get<double>()` throws on a null. -/
def nullDouble : CppException :=
  Json.typeError "302" "type must be number, but is null"

theorem getDouble_nullify (d : Binary64) :
    (Json.float d).nullify.getDouble = if d.isFinite then .ok d else .error nullDouble := by
  unfold Json.nullify
  split <;> rfl

/-- Decoding a frame as it is written. -/
theorem decode_written (f : TelemetryFrame) : decode L (frameTree .float f).nullify =
    if (doubles f).all Binary64.isFinite then .ok f else .error nullDouble := by
  rw [nullify_frameTree, decode_frameTree]
  simp only [getDouble_nullify, doubles, List.all_cons, List.all_nil, Bool.and_true]
  cases f.battery_voltage_v.isFinite with
  | false => rfl
  | true =>
    cases f.battery_current_ma.isFinite with
    | false => rfl
    | true =>
      cases f.solar_input_w.isFinite with
      | false => rfl
      | true =>
        cases f.obc_temp_c.isFinite with
        | false => rfl
        | true =>
          cases f.battery_temp_c.isFinite with
          | false => rfl
          | true => cases f.payload_temp_c.isFinite <;> rfl

end Decode

/-! ## The round trip -/

section RoundTrip

variable {L : JsonLibrary} (hL : L.Lawful) (f : TelemetryFrame)

theorem toJson_eq (L : JsonLibrary) (f : TelemetryFrame) :
    toJson L f = L.dumpThrowing (frameTree .float f) := by
  rw [toJson, toTree_eq, ok_bind]

include hL

/-- Serializing fails exactly on a `satellite_id` that is not valid UTF-8. -/
theorem toJson_error_iff :
    (∃ e, toJson L f = .error e) ↔ validUtf8 f.satellite_id = false := by
  rw [toJson_eq, ← utf8_frameTree, ← hL.dump_error_iff, JsonLibrary.dumpThrowing]
  cases L.dump (frameTree .float f) with
  | error w => exact iff_of_true ⟨_, rfl⟩ ⟨w, rfl⟩
  | ok s => exact iff_of_false (fun ⟨e, he⟩ => nomatch he) (fun ⟨w, hw⟩ => nomatch hw)

theorem toJson_ok_iff : (∃ s, toJson L f = .ok s) ↔ validUtf8 f.satellite_id = true := by
  rw [exists_ok_iff, toJson_error_iff hL f, Bool.not_eq_false]

/-- The text of a frame parses to its tree with null for the doubles that are not finite. -/
theorem parse_toJson {s : Bytes} (h : toJson L f = .ok s) :
    L.parse s = .ok (frameTree .float f).nullify := by
  have hdump : L.dump (frameTree .float f) = .ok s := by
    rw [toJson_eq, JsonLibrary.dumpThrowing] at h
    cases hd : L.dump (frameTree .float f) with
    | error w =>
      rw [hd] at h
      cases h
    | ok s' =>
      rw [hd] at h
      exact congrArg _ (Except.ok.inj h)
  refine hL.parse_dump _ s ?_ (Json.finite_nullify _) ?_
  · rw [Json.canonical_nullify]
    exact canonical_frameTree f
  · rw [hL.dump_nullify, hdump]

theorem fromJson_toJson {s : Bytes} (h : toJson L f = .ok s) : fromJson L s =
    if (doubles f).all Binary64.isFinite then .ok f else .error nullDouble := by
  rw [fromJson, JsonLibrary.parseThrowing, parse_toJson hL f h]
  exact decode_written L f

end RoundTrip

/-- The round trip of one frame. -/
structure RoundTrips (L : JsonLibrary) (f : TelemetryFrame) : Prop where
  fails_iff : (∃ e, toJson L f = .error e) ↔ validUtf8 f.satellite_id = false
  back : ∀ s, toJson L f = .ok s → (∀ d ∈ doubles f, d.isFinite = true) → fromJson L s = .ok f
  throws : ∀ s, toJson L f = .ok s → (∃ d ∈ doubles f, d.isFinite = false) →
    ∃ e, fromJson L s = .error e
  equal : ∀ s g, toJson L f = .ok s → fromJson L s = .ok g → g = f

/-- Every frame round trips. -/
theorem roundTrips {L : JsonLibrary} (hL : L.Lawful) (f : TelemetryFrame) : RoundTrips L f where
  fails_iff := toJson_error_iff hL f
  back s h hfin := by
    rw [fromJson_toJson hL f h, if_pos (List.all_eq_true.mpr hfin)]
  throws s h hinf := by
    obtain ⟨d, hd, hdf⟩ := hinf
    have hall : ¬(doubles f).all Binary64.isFinite = true := by
      intro hall
      rw [List.all_eq_true.mp hall d hd] at hdf
      cases hdf
    exact ⟨nullDouble, by rw [fromJson_toJson hL f h, if_neg hall]⟩
  equal s g h hg := by
    rw [fromJson_toJson hL f h] at hg
    split at hg
    · exact (Except.ok.inj hg).symm
    · cases hg

/-- The nominal frame of the tests. -/
def nominalFrame : TelemetryFrame where
  frame_id := 42
  timestamp_ms := 1700000000000
  satellite_id := bytes "SAT-1"
  battery_voltage_v := 7.4
  battery_current_ma := 250.0
  solar_input_w := 8.0
  charge_pct := 75
  obc_temp_c := 25.0
  battery_temp_c := 22.0
  payload_temp_c := 30.0
  cpu_usage_pct := 45
  memory_usage_pct := 50
  uptime_s := 3600

def nominalText : Bytes :=
  bytes ("\x7b\"frame_id\":42,\"health_flags\":\x7b\"fault_active\":false,\"last_fault_code\":0,"
    ++ "\"safe_mode\":false\x7d,\"satellite_id\":\"SAT-1\",\"subsystems\":\x7b\"obc\":\x7b"
    ++ "\"cpu_usage_pct\":45,\"memory_usage_pct\":50,\"uptime_s\":3600\x7d,\"power\":\x7b"
    ++ "\"battery_current_ma\":250.0,\"battery_voltage_v\":7.4,\"charge_pct\":75,"
    ++ "\"solar_input_w\":8.0\x7d,\"thermal\":\x7b\"battery_temp_c\":22.0,\"obc_temp_c\":25.0,"
    ++ "\"payload_temp_c\":30.0\x7d\x7d,\"timestamp_ms\":1700000000000\x7d")

/-- The library that writes the nominal frame as its text. -/
noncomputable def nominalLibrary : JsonLibrary :=
  .pinned (frameTree .float nominalFrame) nominalText

theorem nominalLibrary_lawful : nominalLibrary.Lawful :=
  JsonLibrary.pinned_lawful (by decide)

theorem toJson_nominalFrame : toJson nominalLibrary nominalFrame = .ok nominalText := by
  have hu : (frameTree .float nominalFrame).utf8 = true := by
    rw [utf8_frameTree]
    decide
  have hf : (frameTree .float nominalFrame).finite = true := by
    rw [finite_frameTree]
    decide +kernel
  rw [toJson_eq, JsonLibrary.dumpThrowing, nominalLibrary, JsonLibrary.dump_pinned_self hf hu]
  rfl

theorem fromJson_nominalText : fromJson nominalLibrary nominalText = .ok nominalFrame :=
  (roundTrips nominalLibrary_lawful nominalFrame).back _ toJson_nominalFrame (by decide +kernel)

end TelemetrySerializer

end Obcsw
