import Obcsw.JsonText
import Obcsw.Records

/-!
# CommandDeserializer

Uplink JSON to `Command`. `fromJson` parses the text and decodes the tree; `decode` is the
part of it after the parse. The clock read for a missing `timestamp_ms` is the parameter
`now`.

`fromJson` converts the opcode to a byte before `resolveOpcode` compares it with the
allowlist, so a number that is not an allowed opcode but converts to the byte of one is let
through (`Smuggles`). `decode_spec` lists what decoding can do; `fromJson_documented_iff` says
which texts fail, if at all, with one of the two documented exception classes.
-/

open Exceptions

namespace Obcsw

/-! ## Data -/

/-- Uplink command opcodes. -/
inductive Opcode
  | NOOP
  | SET_MODE
  | RESET_SUBSYSTEM
  | PAYLOAD_ON
  | PAYLOAD_OFF
  | DOWNLINK_TELEMETRY
  | UNKNOWN
  deriving DecidableEq, Repr

/-- The underlying byte of the enumerator. -/
def Opcode.toByte : Opcode → UInt8
  | NOOP => 0x01
  | SET_MODE => 0x10
  | RESET_SUBSYSTEM => 0x11
  | PAYLOAD_ON => 0x20
  | PAYLOAD_OFF => 0x21
  | DOWNLINK_TELEMETRY => 0x30
  | UNKNOWN => 0xFF

/-- A parsed uplink command. -/
structure Command where
  sequence_number : UInt32 := 0
  opcode : Opcode := .UNKNOWN
  subsystem : Bytes := []
  parameters : Json := .null
  timestamp_ms : UInt64 := 0

namespace CommandDeserializer

/-! ## The code -/

/-- The opcode names, by byte. -/
def kOpcodeNames : List (UInt8 × String) :=
  [(0x01, "NOOP"), (0x10, "SET_MODE"), (0x11, "RESET_SUBSYSTEM"), (0x20, "PAYLOAD_ON"),
    (0x21, "PAYLOAD_OFF"), (0x30, "DOWNLINK_TELEMETRY")]

/-- Map a raw byte to the opcode. -/
def resolveOpcode (raw : UInt8) : Opcode :=
  if raw = 0x01 then .NOOP
  else if raw = 0x10 then .SET_MODE
  else if raw = 0x11 then .RESET_SUBSYSTEM
  else if raw = 0x20 then .PAYLOAD_ON
  else if raw = 0x21 then .PAYLOAD_OFF
  else if raw = 0x30 then .DOWNLINK_TELEMETRY
  else .UNKNOWN

/-- Human-readable name for logging. -/
def opcodeName (opcode : Opcode) : String :=
  (kOpcodeNames.lookup opcode.toByte).getD "UNKNOWN"

/-- The two digits `%02X` prints. -/
def hexByte (b : UInt8) : String :=
  String.ofList ([b.toNat / 16, b.toNat % 16].map fun d => (Nat.digitChar d).toUpper)

/-- The exception for a document without a required field. -/
def missingFields : CppException :=
  runtime_error "CommandDeserializer: missing required fields 'opcode' or 'sequence_number'"

/-- The exception for a byte outside the allowlist. -/
def unknownOpcode (raw : UInt8) : CppException :=
  invalid_argument ("CommandDeserializer: unknown or disallowed opcode 0x" ++ hexByte raw)

/-- The part of `fromJson` after the parse. -/
def decode (L : JsonLibrary) (now : UInt64) (j : Json) : Except CppException Command := do
  if !j.contains "opcode" || !j.contains "sequence_number" then
    throw missingFields
  let sequence_number ← (← j.atKey "sequence_number").getU32 L
  let raw_opcode ← (← j.atKey "opcode").getU8 L
  let opcode := resolveOpcode raw_opcode
  if opcode = .UNKNOWN then
    throw (unknownOpcode raw_opcode)
  let subsystem ← j.valueOr Json.getString "subsystem" []
  let parameters ← j.valueOr Json.getJson "parameters" (.object [])
  let timestamp_ms ← j.valueOr (Json.getU64 L) "timestamp_ms" now
  return { sequence_number, opcode, subsystem, parameters, timestamp_ms }

/-- Parse a JSON string into a command. -/
def fromJson (L : JsonLibrary) (now : UInt64) (json_str : Bytes) :
    Except CppException Command := do
  let j ← rethrowing .json_parse_error
    (fun e => runtime_error ("CommandDeserializer: JSON parse error: " ++ e.what))
    (L.parseThrowing json_str)
  decode L now j

/-! ## What decoding can do -/

theorem resolveOpcode_toByte {op : Opcode} (h : op ≠ .UNKNOWN) : resolveOpcode op.toByte = op := by
  cases op with
  | UNKNOWN => exact absurd rfl h
  | _ => rfl

/-- The switch lets through the bytes of the six opcodes, and no other. -/
theorem resolveOpcode_ne_unknown_iff {raw : UInt8} :
    resolveOpcode raw ≠ .UNKNOWN ↔ ∃ op : Opcode, op ≠ .UNKNOWN ∧ raw = op.toByte := by
  constructor
  · intro h
    refine ⟨resolveOpcode raw, h, ?_⟩
    unfold resolveOpcode at h ⊢
    split_ifs at h ⊢ with h₁ h₂ h₃ h₄ h₅ h₆
    · exact h₁
    · exact h₂
    · exact h₃
    · exact h₄
    · exact h₅
    · exact h₆
    · exact absurd rfl h
  · rintro ⟨op, hop, rfl⟩
    exact (resolveOpcode_toByte hop).trans_ne hop

section Decode

variable (L : JsonLibrary) (now : UInt64) (j : Json)

/-- The value under a key, where there is one, is of a kind in `kind`. -/
def FieldIs (kind : Json → Bool) (k : String) : Prop :=
  ∀ v, j.find k = some v → kind v = true

/-- `get<uint8_t>()` of the opcode gives `raw`. -/
def RawOpcode (raw : UInt8) : Prop :=
  ∃ v, j.find "opcode" = some v ∧ v.getU8 L = .ok raw

/-- The outcomes of `decode`, in the order the code meets them. -/
inductive Decodes : Except CppException Command → Prop
  | missing (h : j.find "opcode" = none ∨ j.find "sequence_number" = none) :
      Decodes (.error missingFields)
  | sequence (v op : Json) (hop : j.find "opcode" = some op)
      (hv : j.find "sequence_number" = some v) (h : (v.isNumber || v.isBoolean) = false)
      (text : String) : Decodes (.error (Json.typeError "302" text))
  | opcode (v op : Json) (hv : j.find "sequence_number" = some v)
      (hseq : (v.isNumber || v.isBoolean) = true) (hop : j.find "opcode" = some op)
      (h : (op.isNumber || op.isBoolean) = false) (text : String) :
      Decodes (.error (Json.typeError "302" text))
  | disallowed (v : Json) (raw : UInt8) (hv : j.find "sequence_number" = some v)
      (hseq : (v.isNumber || v.isBoolean) = true) (hraw : RawOpcode L j raw)
      (h : resolveOpcode raw = .UNKNOWN) : Decodes (.error (unknownOpcode raw))
  | optional (v : Json) (raw : UInt8) (hv : j.find "sequence_number" = some v)
      (hseq : (v.isNumber || v.isBoolean) = true) (hraw : RawOpcode L j raw)
      (hop : resolveOpcode raw ≠ .UNKNOWN)
      (h : ¬FieldIs j Json.isString "subsystem" ∨ ¬FieldIs j Json.isNumber "timestamp_ms")
      (text : String) : Decodes (.error (Json.typeError "302" text))
  | command (v : Json) (raw : UInt8) (cmd : Command) (hv : j.find "sequence_number" = some v)
      (hseq : v.getU32 L = .ok cmd.sequence_number) (hraw : RawOpcode L j raw)
      (hop : resolveOpcode raw ≠ .UNKNOWN) (hcmd : cmd.opcode = resolveOpcode raw)
      (hsub : FieldIs j Json.isString "subsystem") (hts : FieldIs j Json.isNumber "timestamp_ms")
      (hcsub : j.valueOr Json.getString "subsystem" [] = .ok cmd.subsystem)
      (hcpar : cmd.parameters = (j.find "parameters").getD (.object []))
      (hcts : j.valueOr (Json.getU64 L) "timestamp_ms" now = .ok cmd.timestamp_ms) :
      Decodes (.ok cmd)

/-- An optional field converts when it is absent or of the right kind. -/
theorem valueOr_cases {α : Type} {get : Json → Except CppException α} {kind : Json → Bool}
    (hget : ∀ v, (kind v = true ∧ ∃ a, get v = .ok a) ∨
      (kind v = false ∧ ∃ t, get v = .error (Json.typeError "302" t)))
    (k : String) (dflt : α) (hobj : j.contains "opcode" = true) :
    (FieldIs j kind k ∧ ∃ a, j.valueOr get k dflt = .ok a) ∨
      (¬FieldIs j kind k ∧ ∃ t, j.valueOr get k dflt = .error (Json.typeError "302" t)) := by
  cases hf : j.find k with
  | none =>
    refine Or.inl ⟨fun v hv => ?_, dflt, Json.valueOr_of_absent get dflt hobj hf⟩
    rw [hf] at hv
    cases hv
  | some v =>
    rw [Json.valueOr_of_find get dflt hf]
    rcases hget v with ⟨hk, a, ha⟩ | ⟨hk, t, ht⟩
    · refine Or.inl ⟨fun v' hv' => ?_, a, ha⟩
      rw [hf] at hv'
      obtain rfl := Option.some.inj hv'
      exact hk
    · refine Or.inr ⟨fun h => ?_, t, ht⟩
      rw [h v hf] at hk
      cases hk

/-- The optional fields, once the opcode is allowed. -/
theorem decode_spec_optional {v : Json} {raw : UInt8} {n : UInt32}
    (hv : j.find "sequence_number" = some v) (hk : (v.isNumber || v.isBoolean) = true)
    (hn : v.getU32 L = .ok n) (hraw : RawOpcode L j raw) (hres : resolveOpcode raw ≠ .UNKNOWN)
    (hobj : j.contains "opcode" = true) :
    Decodes L now j (do
      let subsystem ← j.valueOr Json.getString "subsystem" []
      let parameters ← j.valueOr Json.getJson "parameters" (.object [])
      let timestamp_ms ← j.valueOr (Json.getU64 L) "timestamp_ms" now
      return { sequence_number := n, opcode := resolveOpcode raw, subsystem, parameters,
               timestamp_ms }) := by
  have hpar : j.valueOr Json.getJson "parameters" (.object []) =
      .ok ((j.find "parameters").getD (.object [])) := by
    cases hf : j.find "parameters" with
    | none => exact Json.valueOr_of_absent _ _ hobj hf
    | some w => exact Json.valueOr_of_find _ _ hf
  rcases valueOr_cases j Json.getString_cases "subsystem" [] hobj with ⟨hs, s, h⟩ | ⟨hs, t, h⟩
  · rcases valueOr_cases j (Json.getU64_cases L) "timestamp_ms" now hobj with
      ⟨hts, ts, h'⟩ | ⟨hts, t, h'⟩
    · simp only [h, hpar, h', ok_bind]
      exact .command v raw _ hv hn hraw hres rfl hs hts h rfl h'
    · simp only [h, hpar, h', ok_bind, error_bind]
      exact .optional v raw hv hk hraw hres (Or.inr hts) t
  · simp only [h, error_bind]
    exact .optional v raw hv hk hraw hres (Or.inl hs) t

/-- Everything `decode` can do. -/
theorem decode_spec : Decodes L now j (decode L now j) := by
  unfold decode
  cases hop : j.find "opcode" with
  | none =>
    rw [if_pos (by simp [Json.contains, hop])]
    exact .missing (Or.inl hop)
  | some op =>
    cases hv : j.find "sequence_number" with
    | none =>
      rw [if_pos (by simp [Json.contains, hv])]
      exact .missing (Or.inr hv)
    | some v =>
      have hobj : j.contains "opcode" = true := Json.contains_iff.mpr ⟨op, hop⟩
      rw [if_neg (by simp [Json.contains, hop, hv])]
      simp only [Json.atKey_of_find hop, Json.atKey_of_find hv]
      rcases Json.getU32_cases L v with ⟨hk, n, hn⟩ | ⟨hk, t, ht⟩
      · rcases Json.getU8_cases L op with ⟨-, raw, hraw⟩ | ⟨hkop, t, ht⟩
        · simp only [hn, hraw, pure_eq_ok, ok_bind]
          by_cases hres : resolveOpcode raw = .UNKNOWN
          · rw [if_pos hres]
            exact .disallowed v raw hv hk ⟨op, hop, hraw⟩ hres
          · rw [if_neg hres]
            exact decode_spec_optional L now j hv hk hn ⟨op, hop, hraw⟩ hres hobj
        · simp only [hn, ht, pure_eq_ok, ok_bind, error_bind]
          exact .opcode v op hv hk hop hkop t
      · simp only [ht, pure_eq_ok, ok_bind, error_bind]
        exact .sequence v op hop hv hk t

variable {L j} in
theorem RawOpcode.unique {raw raw' : UInt8} (h : RawOpcode L j raw) (h' : RawOpcode L j raw') :
    raw = raw' := by
  obtain ⟨v, hv, hraw⟩ := h
  obtain ⟨v', hv', hraw'⟩ := h'
  obtain rfl : v = v' := Option.some.inj (hv.symm.trans hv')
  exact Except.ok.inj (hraw.symm.trans hraw')

/-- What decodes : an opcode that converts to the byte of an allowed one, a sequence number
that is a number or a boolean, and optional fields of their kinds. -/
def Decodable : Prop :=
  (∃ op : Opcode, op ≠ .UNKNOWN ∧ RawOpcode L j op.toByte) ∧
    (∃ v, j.find "sequence_number" = some v ∧ (v.isNumber || v.isBoolean) = true) ∧
    FieldIs j Json.isString "subsystem" ∧ FieldIs j Json.isNumber "timestamp_ms"

/-- The documents that decode. -/
theorem decode_ok_iff : (∃ cmd, decode L now j = .ok cmd) ↔ Decodable L j := by
  have hspec := decode_spec L now j
  constructor
  · rintro ⟨cmd, h⟩
    rw [h] at hspec
    cases hspec with
    | command v raw _ hv hseq hraw hop _ hsub hts _ _ _ =>
      obtain ⟨op, hne, rfl⟩ := resolveOpcode_ne_unknown_iff.mp hop
      exact ⟨⟨op, hne, hraw⟩, ⟨v, hv, Json.kind_of_getU32 L hseq⟩, hsub, hts⟩
  · rintro ⟨⟨allowed, hne, op, hop, hconv⟩, ⟨v, hv, hk⟩, hsub, hts⟩
    generalize decode L now j = r at hspec
    cases hspec with
    | missing h =>
      rcases h with h | h
      · cases hop.symm.trans h
      · cases hv.symm.trans h
    | sequence v' op' hop' hv' h text =>
      obtain rfl : v = v' := Option.some.inj (hv.symm.trans hv')
      cases hk.symm.trans h
    | opcode v' op' hv' hseq hop' h text =>
      obtain rfl : op = op' := Option.some.inj (hop.symm.trans hop')
      cases (Json.kind_of_getU8 L hconv).symm.trans h
    | disallowed v' raw' hv' hseq hraw' h =>
      obtain rfl : allowed.toByte = raw' := RawOpcode.unique ⟨op, hop, hconv⟩ hraw'
      exact absurd h (resolveOpcode_ne_unknown_iff.mpr ⟨allowed, hne, rfl⟩)
    | optional v' raw' hv' hseq hraw' hop' h text =>
      rcases h with h | h
      · exact absurd hsub h
      · exact absurd hts h
    | command v' raw' cmd => exact ⟨cmd, rfl⟩

end Decode

/-- Everything `fromJson` can do, from what `parse` does. -/
theorem fromJson_cases (L : JsonLibrary) (now : UInt64) (s : Bytes) :
    (∃ w, L.parse s = .error (.parse_error w) ∧ fromJson L now s =
      .error (runtime_error ("CommandDeserializer: JSON parse error: " ++ w))) ∨
    (∃ w, L.parse s = .error (.out_of_range w) ∧
      fromJson L now s = .error ⟨.json_out_of_range, w⟩) ∨
    (∃ j, L.parse s = .ok j ∧ fromJson L now s = decode L now j) := by
  unfold fromJson JsonLibrary.parseThrowing
  cases h : L.parse s with
  | error failure =>
    cases failure with
    | parse_error w => exact Or.inl ⟨w, rfl, rfl⟩
    | out_of_range w => exact Or.inr (Or.inl ⟨w, rfl, rfl⟩)
  | ok j => exact Or.inr (Or.inr ⟨j, rfl, rfl⟩)

/-- The parameters of a decoded command are valid UTF-8, as all of its text is. -/
theorem parameters_utf8 {L : JsonLibrary} (hL : L.Lawful) {now : UInt64} {s : Bytes} {cmd : Command}
    (h : fromJson L now s = .ok cmd) : cmd.parameters.utf8 = true := by
  rcases fromJson_cases L now s with ⟨w, -, hf⟩ | ⟨w, -, hf⟩ | ⟨j, hp, hf⟩
  · rw [h] at hf
    cases hf
  · rw [h] at hf
    cases hf
  · have hspec := decode_spec L now j
    rw [← hf, h] at hspec
    cases hspec with
    | command v raw _ hv hseq hraw hop hcmd hsub hts hcsub hcpar hcts =>
      rw [hcpar]
      cases hfind : j.find "parameters" with
      | none => rfl
      | some params => exact Json.everywhere_find (hL.parse_utf8 s j hp) hfind

/-- A decoded command has an opcode of the list. -/
theorem opcode_of_fromJson {L : JsonLibrary} {now : UInt64} {s : Bytes} {cmd : Command}
    (h : fromJson L now s = .ok cmd) : cmd.opcode ≠ .UNKNOWN := by
  rcases fromJson_cases L now s with ⟨w, -, hf⟩ | ⟨w, -, hf⟩ | ⟨j, -, hf⟩
  · cases h.symm.trans hf
  · cases h.symm.trans hf
  · have hspec := decode_spec L now j
    rw [← hf, h] at hspec
    cases hspec with
    | command _ _ _ _ _ _ hop hcmd => exact hcmd.trans_ne hop

/-! ## The allowlist -/

/-- The value is an integer, and that integer is the code of the allowed opcode `op`. -/
def Allowed (v : Json) (op : Opcode) : Prop :=
  op ≠ .UNKNOWN ∧ v.asInteger = some (op.toByte.toNat : ℤ)

/-- An allowed value converts to the byte of its opcode. -/
theorem Allowed.getU8 {v : Json} {op : Opcode} (h : Allowed v op) (L : JsonLibrary) :
    v.getU8 L = .ok op.toByte := by
  rw [Json.getU8, Json.getUnsigned_of_asInteger L h.2]
  cases op <;> rfl

/-- The document names no allowed opcode, but its opcode converts to the byte of one, and
nothing else in it stops the command. -/
def Smuggles (L : JsonLibrary) (j : Json) : Prop :=
  (¬∃ v op, j.find "opcode" = some v ∧ Allowed v op) ∧ Decodable L j

/-- A decoded command names the opcode of the document, unless it was smuggled. -/
theorem allowed_of_decode_ok {L : JsonLibrary} {now : UInt64} {j : Json} {cmd : Command}
    (h : decode L now j = .ok cmd) (hj : ¬Smuggles L j) :
    ∃ v, j.find "opcode" = some v ∧ Allowed v cmd.opcode := by
  have hallowed : ∃ v op, j.find "opcode" = some v ∧ Allowed v op := by
    by_contra hnone
    exact hj ⟨hnone, (decode_ok_iff L now j).mp ⟨cmd, h⟩⟩
  obtain ⟨v, op, hv, hop⟩ := hallowed
  have hspec := decode_spec L now j
  rw [h] at hspec
  cases hspec with
  | command _ raw _ _ _ hraw _ hcmd _ _ _ _ _ =>
    obtain rfl : op.toByte = raw := RawOpcode.unique ⟨v, hv, hop.getU8 L⟩ hraw
    rw [hcmd, resolveOpcode_toByte hop.1]
    exact ⟨v, hv, hop⟩

/-- A smuggled opcode is decoded. -/
theorem decode_ok_of_smuggles {L : JsonLibrary} (now : UInt64) {j : Json} (h : Smuggles L j) :
    ∃ cmd, decode L now j = .ok cmd :=
  (decode_ok_iff L now j).mpr h.2

/-! ## Failure classes -/

/-- Both required fields are present only with values that convert, and behind the byte of an
allowed opcode the optional fields are absent or convert as well. -/
def Convertible (L : JsonLibrary) (j : Json) : Prop :=
  ∀ v op, j.find "sequence_number" = some v → j.find "opcode" = some op →
    (v.isNumber || v.isBoolean) = true ∧ (op.isNumber || op.isBoolean) = true ∧
      ∀ allowed : Opcode, allowed ≠ .UNKNOWN → op.getU8 L = .ok allowed.toByte →
        FieldIs j Json.isString "subsystem" ∧ FieldIs j Json.isNumber "timestamp_ms"

/-- The text is malformed, or a document whose fields convert. A text that `parse` gives up
on for a number out of range is neither. -/
def UplinkConverts (L : JsonLibrary) (s : Bytes) : Prop :=
  match L.parse s with
  | .error (.parse_error _) => True
  | .error (.out_of_range _) => False
  | .ok j => Convertible L j

/-- The two classes the header documents. -/
def documented (e : CppException) : Bool :=
  e.isA .invalid_argument || e.isA .runtime_error

/-- `decode` fails with a documented class exactly on the convertible documents. -/
theorem decode_documented_iff (L : JsonLibrary) (now : UInt64) (j : Json) :
    (∀ e, decode L now j = .error e → documented e = true) ↔ Convertible L j := by
  have hspec := decode_spec L now j
  generalize decode L now j = r at hspec
  cases hspec with
  | missing h =>
    refine iff_of_true (fun e he => by cases he; rfl) fun v op hv hop => ?_
    rcases h with h | h
    · rw [hop] at h
      cases h
    · rw [hv] at h
      cases h
  | sequence v op hop hv h text =>
    refine iff_of_false (fun hall => Bool.false_ne_true (hall _ rfl)) fun hc => ?_
    rw [(hc v op hv hop).1] at h
    cases h
  | opcode v op hv hseq hop h text =>
    refine iff_of_false (fun hall => Bool.false_ne_true (hall _ rfl)) fun hc => ?_
    rw [(hc v op hv hop).2.1] at h
    cases h
  | disallowed v raw hv hseq hraw h =>
    refine iff_of_true (fun e he => by cases he; rfl) fun v' op' hv' hop' => ?_
    obtain ⟨op, hop, hraw⟩ := hraw
    obtain rfl : op = op' := Option.some.inj (hop.symm.trans hop')
    obtain rfl : v = v' := Option.some.inj (hv.symm.trans hv')
    refine ⟨hseq, Json.kind_of_getU8 L hraw, fun allowed hne hbyte => ?_⟩
    obtain rfl : raw = allowed.toByte := Except.ok.inj (hraw.symm.trans hbyte)
    exact absurd h (resolveOpcode_ne_unknown_iff.mpr ⟨allowed, hne, rfl⟩)
  | optional v raw hv hseq hraw hop h text =>
    refine iff_of_false (fun hall => Bool.false_ne_true (hall _ rfl)) fun hc => ?_
    obtain ⟨op, hfind, hraw⟩ := hraw
    obtain ⟨allowed, hne, rfl⟩ := resolveOpcode_ne_unknown_iff.mp hop
    obtain ⟨hsub, hts⟩ := (hc v op hv hfind).2.2 allowed hne hraw
    rcases h with h | h
    · exact h hsub
    · exact h hts
  | command v raw cmd hv hseq hraw hop hcmd hsub hts _ _ _ =>
    refine iff_of_true (fun e he => by cases he) fun v' op' hv' hop' => ?_
    obtain ⟨op, hfind, hraw⟩ := hraw
    obtain rfl : op = op' := Option.some.inj (hfind.symm.trans hop')
    obtain rfl : v = v' := Option.some.inj (hv.symm.trans hv')
    exact ⟨Json.kind_of_getU32 L hseq, Json.kind_of_getU8 L hraw, fun _ _ _ => ⟨hsub, hts⟩⟩

/-- `fromJson` fails with a documented class exactly on the texts that convert. -/
theorem fromJson_documented_iff (L : JsonLibrary) (now : UInt64) (s : Bytes) :
    (∀ e, fromJson L now s = .error e → documented e = true) ↔ UplinkConverts L s := by
  unfold UplinkConverts
  rcases fromJson_cases L now s with ⟨w, hp, hf⟩ | ⟨w, hp, hf⟩ | ⟨j, hp, hf⟩
  · rw [hp, hf]
    exact iff_of_true (fun e he => by cases he; rfl) trivial
  · rw [hp, hf]
    exact iff_of_false (fun hall => Bool.false_ne_true (hall _ rfl)) id
  · rw [hp, hf]
    exact decode_documented_iff L now j

/-! ## The numbers of a command -/

/-- The document's sequence number, if it is an integer. -/
def sequenceOf (j : Json) : Option ℤ :=
  (j.find "sequence_number").bind Json.asInteger

/-- The command of a document that parses and decodes. -/
def Accepts (L : JsonLibrary) (now : UInt64) (s : Bytes) (j : Json) (cmd : Command) : Prop :=
  L.parse s = .ok j ∧ fromJson L now s = .ok cmd

/-- The numbers of an accepted command are the integers that were sent. -/
def NumbersAsSent (L : JsonLibrary) (s : Bytes) : Prop :=
  ∀ now j cmd, Accepts L now s j cmd →
    sequenceOf j = some (cmd.sequence_number.toNat : ℤ) ∧
      ∀ v, j.find "timestamp_ms" = some v → v.asInteger = some (cmd.timestamp_ms.toNat : ℤ)

/-- Documents with different sequence numbers give commands with different ones. -/
def Distinguishes (L : JsonLibrary) (s s' : Bytes) : Prop :=
  ∀ now now' j j' cmd cmd', Accepts L now s j cmd → Accepts L now' s' j' cmd' →
    sequenceOf j ≠ sequenceOf j' → cmd.sequence_number ≠ cmd'.sequence_number

/-- The numbers of the document are integers that fit their fields. -/
def NumbersFit (j : Json) : Prop :=
  (∀ v, j.find "sequence_number" = some v → v.IntegerBelow 32) ∧
    ∀ v, j.find "timestamp_ms" = some v → v.IntegerBelow 64

/-- The text is a document that decodes although its numbers do not fit. -/
def Narrows (L : JsonLibrary) (s : Bytes) : Prop :=
  ∃ j, L.parse s = .ok j ∧ Decodable L j ∧ ¬NumbersFit j

section Numbers

variable {L : JsonLibrary} {now : UInt64} {s : Bytes} {j : Json} {cmd : Command}

theorem accepts_iff :
    Accepts L now s j cmd ↔ L.parse s = .ok j ∧ decode L now j = .ok cmd := by
  unfold Accepts fromJson JsonLibrary.parseThrowing
  refine and_congr_right fun hparse => ?_
  rw [hparse]
  rfl

/-- The numbers of a decoded command are the conversions of the document's. -/
theorem numbers_of_decode (h : decode L now j = .ok cmd) :
    (∃ v, j.find "sequence_number" = some v ∧ v.getU32 L = .ok cmd.sequence_number) ∧
      ∀ v, j.find "timestamp_ms" = some v → v.getU64 L = .ok cmd.timestamp_ms := by
  have hspec := decode_spec L now j
  rw [h] at hspec
  cases hspec with
  | command v raw _ hv hseq _ _ _ _ _ _ _ hcts =>
    refine ⟨⟨v, hv, hseq⟩, fun t ht => ?_⟩
    rwa [Json.valueOr_of_find _ _ ht] at hcts

/-- Numbers that fit are the numbers of the command. -/
theorem asSent_of_fit (hfit : NumbersFit j) (h : decode L now j = .ok cmd) :
    sequenceOf j = some (cmd.sequence_number.toNat : ℤ) ∧
      ∀ v, j.find "timestamp_ms" = some v → v.asInteger = some (cmd.timestamp_ms.toNat : ℤ) := by
  obtain ⟨⟨v, hv, hseq⟩, hts⟩ := numbers_of_decode h
  constructor
  · rw [sequenceOf, hv, Option.bind_some]
    exact Json.getU32_of_integerBelow L (hfit.1 v hv) hseq
  · exact fun t ht => Json.getU64_of_integerBelow L (hfit.2 t ht) (hts t ht)

/-- Numbers that are the numbers of the command fit. -/
theorem fit_of_asSent (hseq : sequenceOf j = some (cmd.sequence_number.toNat : ℤ))
    (hts : ∀ v, j.find "timestamp_ms" = some v →
      v.asInteger = some (cmd.timestamp_ms.toNat : ℤ)) : NumbersFit j := by
  constructor
  · intro v hv
    rw [sequenceOf, hv, Option.bind_some] at hseq
    exact Json.integerBelow_of_nat hseq cmd.sequence_number.toNat_lt
  · exact fun v hv => Json.integerBelow_of_nat (hts v hv) cmd.timestamp_ms.toNat_lt

/-- One text : its numbers arrive exactly when they are not narrowed. -/
theorem numbersAsSent_iff_not_narrows : NumbersAsSent L s ↔ ¬Narrows L s := by
  constructor
  · rintro hsent ⟨j, hparse, hdec, hfit⟩
    obtain ⟨cmd, hcmd⟩ := (decode_ok_iff L 0 j).mpr hdec
    obtain ⟨hseq, hts⟩ := hsent 0 j cmd (accepts_iff.mpr ⟨hparse, hcmd⟩)
    exact hfit (fit_of_asSent hseq hts)
  · intro hnot now j cmd haccepts
    obtain ⟨hparse, hcmd⟩ := accepts_iff.mp haccepts
    have hfit : NumbersFit j := by
      by_contra hfit
      exact hnot ⟨j, hparse, (decode_ok_iff L now j).mp ⟨cmd, hcmd⟩, hfit⟩
    exact asSent_of_fit hfit hcmd

/-- Numbers that arrive as sent tell commands apart. -/
theorem distinguishes_of_asSent {s' : Bytes} (h : NumbersAsSent L s) (h' : NumbersAsSent L s') :
    Distinguishes L s s' := by
  intro now now' j j' cmd cmd' haccepts haccepts' hne heq
  refine hne ?_
  rw [(h now j cmd haccepts).1, (h' now' j' cmd' haccepts').1, heq]

/-- Over any collection of texts, the numbers of accepted commands are those sent and tell
the commands apart, exactly when no text of it is narrowed. -/
theorem numbersAsSent_iff (L : JsonLibrary) (texts : Set Bytes) :
    ((∀ s ∈ texts, NumbersAsSent L s) ∧ ∀ s ∈ texts, ∀ s' ∈ texts, Distinguishes L s s') ↔
      ∀ s ∈ texts, ¬Narrows L s := by
  constructor
  · exact fun h s hs => numbersAsSent_iff_not_narrows.mp (h.1 s hs)
  · intro h
    have hsent : ∀ s ∈ texts, NumbersAsSent L s :=
      fun s hs => numbersAsSent_iff_not_narrows.mpr (h s hs)
    exact ⟨hsent, fun s hs s' hs' => distinguishes_of_asSent (hsent s hs) (hsent s' hs')⟩

end Numbers

/-- `{"opcode":1,"sequence_number":4294967297}` -/
def wrapping : Json :=
  .object [("opcode", .unsigned 1), ("sequence_number", .unsigned 4294967297)]

def wrappingText : Bytes :=
  bytes "\x7b\"opcode\":1,\"sequence_number\":4294967297\x7d"

/-- `2 ^ 32 + 1` arrives as 1. -/
theorem not_numbersAsSent_wrapping :
    ¬NumbersAsSent (.ofText wrappingText wrapping) wrappingText := by
  intro h
  have hcmd : decode (.ofText wrappingText wrapping) 0 wrapping =
      .ok { sequence_number := 1, opcode := .NOOP, parameters := .object [] } := rfl
  have hseq := (h 0 wrapping _ (accepts_iff.mpr ⟨JsonLibrary.parse_ofText _ _, hcmd⟩)).1
  exact absurd hseq (by decide)

end CommandDeserializer

end Obcsw
