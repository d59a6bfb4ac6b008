import Mathlib.Logic.Function.Basic
import Obcsw.Effects

/-!
# CommandHandler

The table from opcode bytes to callbacks. A callback is a `std::function` : empty, or a
program over the variables `σ` that its captures can reach. `dispatch` calls the callback of
the command's opcode, and `dispatchRaw` parses first and turns the two exception classes it
catches into `REJECTED`.
-/

open Exceptions Program

namespace Obcsw

/-- Result of a command dispatch. -/
inductive CommandResult
  | SUCCESS
  | REJECTED
  | TIMEOUT
  | ERROR
  deriving DecidableEq, Repr

/-- Two opcodes share no byte. -/
theorem Opcode.toByte_injective : Function.Injective Opcode.toByte := by
  intro op op' h
  cases op <;> cases op' <;> first | rfl | cases h

/-- `std::function<CommandResult(const Command&)>`; none is the empty function. -/
abbrev CommandCallback (σ : Type) : Type :=
  Option (Command → Obc σ CommandResult)

/-- The table behind a `CommandHandler`. -/
structure CommandHandler (σ : Type) where
  m_handlers : UInt8 → Option (CommandCallback σ) := fun _ => none

namespace CommandHandler

variable {σ : Type}

/-- Register a handler for the opcode, in place of any earlier one. -/
def registerHandler (h : CommandHandler σ) (opcode : Opcode) (callback : CommandCallback σ) :
    CommandHandler σ :=
  { h with m_handlers := Function.update h.m_handlers opcode.toByte (some callback) }

@[simp] theorem registerHandler_self (h : CommandHandler σ) (opcode : Opcode)
    (callback : CommandCallback σ) :
    (h.registerHandler opcode callback).m_handlers opcode.toByte = some callback :=
  Function.update_self ..

theorem registerHandler_of_ne (h : CommandHandler σ) {opcode : Opcode} {b : UInt8}
    (callback : CommandCallback σ) (hb : b ≠ opcode.toByte) :
    (h.registerHandler opcode callback).m_handlers b = h.m_handlers b :=
  Function.update_of_ne hb ..

/-- Every callback of the table is non-empty and has the property `P`. -/
def Callbacks (h : CommandHandler σ) (P : (Command → Obc σ CommandResult) → Prop) : Prop :=
  ∀ b callback, h.m_handlers b = some callback → ∃ f, callback = some f ∧ P f

theorem callbacks_empty (P : (Command → Obc σ CommandResult) → Prop) :
    ({} : CommandHandler σ).Callbacks P :=
  fun _ _ h => nomatch h

theorem Callbacks.imp {h : CommandHandler σ} {P Q : (Command → Obc σ CommandResult) → Prop}
    (hh : h.Callbacks P) (hPQ : ∀ f, P f → Q f) : h.Callbacks Q := by
  intro b callback hb
  obtain ⟨f, hf, hP⟩ := hh b callback hb
  exact ⟨f, hf, hPQ f hP⟩

/-- Registering a callback with the property keeps it. -/
theorem Callbacks.registerHandler {h : CommandHandler σ}
    {P : (Command → Obc σ CommandResult) → Prop} (hh : h.Callbacks P) (opcode : Opcode)
    {f : Command → Obc σ CommandResult} (hf : P f) :
    (h.registerHandler opcode (some f)).Callbacks P := by
  intro b callback hb
  by_cases hop : b = opcode.toByte
  · subst hop
    rw [registerHandler_self] at hb
    obtain rfl := Option.some.inj hb
    exact ⟨f, rfl, hf⟩
  · rw [registerHandler_of_ne h _ hop] at hb
    exact hh b callback hb

/-- Call a `std::function`; an empty one throws. -/
def call (callback : CommandCallback σ) (cmd : Command) : Obc σ CommandResult :=
  match callback with
  | none => raise ⟨.bad_function_call, "bad_function_call"⟩
  | some f => do
    emit (.invoke cmd.opcode.toByte cmd)
    f cmd

/-- Dispatch a parsed command. -/
def dispatch (h : CommandHandler σ) (cmd : Command) : Obc σ CommandResult :=
  match h.m_handlers cmd.opcode.toByte with
  | none => do
    emit (.cerr (bytes ("[CommandHandler] No handler registered for opcode "
      ++ CommandDeserializer.opcodeName cmd.opcode ++ "\n")))
    return .REJECTED
  | some callback => call callback cmd

/-- Parse a JSON string, then dispatch. -/
def dispatchRaw (L : JsonLibrary) (now : UInt64) (h : CommandHandler σ) (json_str : Bytes) :
    Obc σ CommandResult := do
  let parsed ← tryCatch (some <$> ofExcept (CommandDeserializer.fromJson L now json_str)) fun e =>
    if e.isA .invalid_argument then
      some do
        emit (.cerr (bytes ("[CommandHandler] Invalid opcode: " ++ e.what ++ "\n")))
        return none
    else if e.isA .runtime_error then
      some do
        emit (.cerr (bytes ("[CommandHandler] Malformed command: " ++ e.what ++ "\n")))
        return none
    else none
  match parsed with
  | none => return .REJECTED
  | some cmd => h.dispatch cmd

/-! ## How `dispatchRaw` ends -/

section Raw

open CommandDeserializer

variable {L : JsonLibrary} {now : UInt64} {s : Bytes} (H : CommandHandler σ) (w : σ)

/-- A decoded command is dispatched, and nothing else happens. -/
theorem dispatchRaw_of_ok {cmd : Command} (h : fromJson L now s = .ok cmd) :
    (dispatchRaw L now H s).run w = (H.dispatch cmd).run w := by
  unfold dispatchRaw
  rw [h]
  rfl

/-- A failure of a documented class is reported and rejected, from any variables alike. -/
theorem exists_rejection {e : CppException} (h : fromJson L now s = .error e)
    (he : documented e = true) :
    ∃ text, ∀ w, (dispatchRaw L now H s).Returns w [.cerr text] .REJECTED w := by
  unfold documented at he
  by_cases hi : e.isA .invalid_argument = true
  · refine ⟨bytes ("[CommandHandler] Invalid opcode: " ++ e.what ++ "\n"), fun w => ?_⟩
    rw [Prog.Returns, dispatchRaw, h, bind_run, tryCatch_of_caught rfl (by rw [if_pos hi])]
    rfl
  · have hr : e.isA .runtime_error = true := by simpa [hi] using he
    refine ⟨bytes ("[CommandHandler] Malformed command: " ++ e.what ++ "\n"), fun w => ?_⟩
    rw [Prog.Returns, dispatchRaw, h, bind_run,
      tryCatch_of_caught rfl (by rw [if_neg hi, if_pos hr])]
    rfl

theorem dispatchRaw_of_documented {e : CppException} (h : fromJson L now s = .error e)
    (he : documented e = true) :
    ∃ text, (dispatchRaw L now H s).run w = ⟨[.cerr text], w, .ok .REJECTED⟩ := by
  obtain ⟨text, ht⟩ := exists_rejection H h he
  exact ⟨text, ht w⟩

/-- A failure of any other class escapes. -/
theorem dispatchRaw_of_escaping {e : CppException} (h : fromJson L now s = .error e)
    (he : documented e = false) : (dispatchRaw L now H s).run w = ⟨[], w, .error e⟩ := by
  unfold documented at he
  rw [Bool.or_eq_false_iff] at he
  unfold dispatchRaw
  rw [h, bind_run, tryCatch_of_escaped rfl (by rw [he.1, he.2]; rfl)]
  rfl

/-- A failure to decode invokes no handler. -/
theorem invocations_of_error {e : CppException} (h : fromJson L now s = .error e) :
    Event.invocations ((dispatchRaw L now H s).run w).events = [] := by
  cases he : documented e with
  | true =>
    obtain ⟨text, ht⟩ := dispatchRaw_of_documented H w h he
    rw [ht]
    rfl
  | false =>
    rw [dispatchRaw_of_escaping H w h he]
    rfl

end Raw

/-! ## The opcode allowlist -/

open CommandDeserializer

/-- The allowlist is not bypassed on the text `s` : an accepted document names the allowed
opcode of its command as an integer, and any other document is refused and reaches no
handler. -/
structure AllowlistHolds (L : JsonLibrary) (now : UInt64) (s : Bytes) : Prop where
  accepted : ∀ cmd, fromJson L now s = .ok cmd →
    ∃ j v, L.parse s = .ok j ∧ j.find "opcode" = some v ∧ Allowed v cmd.opcode
  refused : ∀ j, L.parse s = .ok j → (¬∃ v op, j.find "opcode" = some v ∧ Allowed v op) →
    (∃ e, fromJson L now s = .error e) ∧ ∀ (σ : Type) (H : CommandHandler σ) (w : σ),
      Event.invocations ((dispatchRaw L now H s).run w).events = []

/-- The allowlist holds exactly on the texts that do not smuggle an opcode through the
conversion to a byte. -/
theorem allowlistHolds_iff (L : JsonLibrary) (now : UInt64) (s : Bytes) :
    AllowlistHolds L now s ↔ ∀ j, L.parse s = .ok j → ¬Smuggles L j := by
  constructor
  · intro h j hp hj
    obtain ⟨⟨e, he⟩, -⟩ := h.refused j hp hj.1
    obtain ⟨cmd, hcmd⟩ := decode_ok_of_smuggles now hj
    rcases fromJson_cases L now s with ⟨w, hp', -⟩ | ⟨w, hp', -⟩ | ⟨j', hp', hf⟩
    · rw [hp] at hp'
      cases hp'
    · rw [hp] at hp'
      cases hp'
    · obtain rfl : j = j' := Except.ok.inj (hp.symm.trans hp')
      rw [hf, hcmd] at he
      cases he
  · intro h
    have haccepted : ∀ cmd, fromJson L now s = .ok cmd →
        ∃ j v, L.parse s = .ok j ∧ j.find "opcode" = some v ∧ Allowed v cmd.opcode := by
      intro cmd hcmd
      rcases fromJson_cases L now s with ⟨w, hp, hf⟩ | ⟨w, hp, hf⟩ | ⟨j, hp, hf⟩
      · rw [hcmd] at hf
        cases hf
      · rw [hcmd] at hf
        cases hf
      · obtain ⟨v, hv, hallowed⟩ := allowed_of_decode_ok (hf.symm.trans hcmd) (h j hp)
        exact ⟨j, v, hp, hv, hallowed⟩
    refine ⟨haccepted, fun j hp hnone => ?_⟩
    have herr : ∃ e, fromJson L now s = .error e := by
      cases hf : fromJson L now s with
      | error e => exact ⟨e, rfl⟩
      | ok cmd =>
        obtain ⟨j', v, hp', hv, hallowed⟩ := haccepted cmd hf
        obtain rfl : j = j' := Except.ok.inj (hp.symm.trans hp')
        exact absurd ⟨v, cmd.opcode, hv, hallowed⟩ hnone
    obtain ⟨e, he⟩ := herr
    exact ⟨⟨e, he⟩, fun σ H w => invocations_of_error H w he⟩

/-- `{"opcode":257,"sequence_number":1}` : the opcode converts to the byte of `NOOP`. -/
def opcode257 : Json :=
  .object [("opcode", .unsigned 257), ("sequence_number", .unsigned 1)]

def opcode257Text : Bytes :=
  bytes "\x7b\"sequence_number\":1,\"opcode\":257\x7d"

/-- Opcode 257 is accepted as `NOOP`. -/
theorem not_allowlistHolds_opcode257 :
    ¬AllowlistHolds (.ofText opcode257Text opcode257) 0 opcode257Text := by
  intro h
  obtain ⟨j, v, hp, hv, hallowed⟩ := h.accepted
    { sequence_number := 1, opcode := .NOOP, subsystem := [], parameters := .object [],
      timestamp_ms := 0 }
    (by rw [fromJson, JsonLibrary.parseThrowing, JsonLibrary.parse_ofText]; rfl)
  obtain rfl := Except.ok.inj ((JsonLibrary.parse_ofText _ _).symm.trans hp)
  obtain rfl := Option.some.inj hv
  have := hallowed.2
  revert this
  decide

/-! ## Containment of bad uplinks -/

/-- `dispatchRaw` contains the text `s` : it returns, a text that does not decode is
rejected without a handler, and a decoded command gets exactly its dispatch. -/
structure Contains (L : JsonLibrary) (now : UInt64) (H : CommandHandler σ) (s : Bytes) (w : σ) :
    Prop where
  returns : ∃ r, ((dispatchRaw L now H s).run w).result = .ok r
  failed : ∀ e, fromJson L now s = .error e →
    ((dispatchRaw L now H s).run w).result = .ok .REJECTED ∧
      Event.invocations ((dispatchRaw L now H s).run w).events = []
  succeeded : ∀ cmd, fromJson L now s = .ok cmd →
    (dispatchRaw L now H s).run w = (H.dispatch cmd).run w

/-- Every callback is non-empty and returns. -/
def Total (H : CommandHandler σ) : Prop :=
  H.Callbacks fun f => ∀ cmd w, ∃ r, ((f cmd).run w).result = .ok r

/-- A command whose callbacks return is dispatched. -/
theorem dispatch_returns {H : CommandHandler σ} {cmd : Command}
    (hH : H.Callbacks fun f => ∀ w, ∃ r, ((f cmd).run w).result = .ok r) (w : σ) :
    ∃ r, ((H.dispatch cmd).run w).result = .ok r := by
  unfold dispatch
  cases h : H.m_handlers cmd.opcode.toByte with
  | none => exact ⟨.REJECTED, rfl⟩
  | some cb =>
    obtain ⟨f, rfl, hf⟩ := hH _ _ h
    obtain ⟨r, hr⟩ := hf w
    exact ⟨r, hr⟩

/-- `dispatchRaw` contains a text exactly when it converts. -/
theorem dispatchRaw_contains_iff {H : CommandHandler σ} (hH : Total H) (L : JsonLibrary)
    (now : UInt64) (s : Bytes) (w : σ) : Contains L now H s w ↔ UplinkConverts L s := by
  rw [← fromJson_documented_iff L now s]
  constructor
  · intro h e he
    by_contra hdoc
    have hesc := dispatchRaw_of_escaping H w he (Bool.eq_false_iff.mpr hdoc)
    obtain ⟨r, hr⟩ := h.returns
    rw [hesc] at hr
    cases hr
  · intro h
    have hfailed : ∀ e, fromJson L now s = .error e →
        ((dispatchRaw L now H s).run w).result = .ok .REJECTED ∧
          Event.invocations ((dispatchRaw L now H s).run w).events = [] := by
      intro e he
      obtain ⟨text, ht⟩ := dispatchRaw_of_documented H w he (h e he)
      exact ⟨by rw [ht], invocations_of_error H w he⟩
    refine ⟨?_, hfailed, fun cmd hcmd => dispatchRaw_of_ok H w hcmd⟩
    cases hf : fromJson L now s with
    | error e => exact ⟨.REJECTED, (hfailed e hf).1⟩
    | ok cmd =>
      rw [dispatchRaw_of_ok H w hf]
      exact dispatch_returns (hH.imp fun _ hf => hf cmd) w

/-- A table with a handler for `NOOP`. -/
def noopTable : CommandHandler Unit :=
  ({} : CommandHandler Unit).registerHandler .NOOP (some fun _ => return .SUCCESS)

theorem total_noopTable : Total noopTable :=
  (callbacks_empty _).registerHandler .NOOP fun _ _ => ⟨.SUCCESS, rfl⟩

/-- A text that does not parse is contained. -/
theorem contains_malformed :
    Contains (.ofText opcode257Text opcode257) 0 noopTable (bytes "\x7bbad") () := by
  refine (dispatchRaw_contains_iff total_noopTable _ 0 _ ()).mpr ?_
  rw [UplinkConverts, JsonLibrary.parse_ofText_of_ne _ (by decide)]
  trivial

/-- `{"opcode":"x","sequence_number":1}` : the opcode is a string. -/
def opcodeString : Json :=
  .object [("opcode", .string (bytes "x")), ("sequence_number", .unsigned 1)]

def opcodeStringText : Bytes :=
  bytes "\x7b\"sequence_number\":1,\"opcode\":\"x\"\x7d"

/-- A string as opcode makes `dispatchRaw` throw `type_error`. -/
theorem not_contains_opcodeString : Total noopTable ∧
    ¬Contains (.ofText opcodeStringText opcodeString) 0 noopTable opcodeStringText () := by
  refine ⟨total_noopTable, fun h => ?_⟩
  have herr : fromJson (.ofText opcodeStringText opcodeString) 0 opcodeStringText =
      .error (Json.typeError "302" "type must be number, but is string") := by
    rw [fromJson, JsonLibrary.parseThrowing, JsonLibrary.parse_ofText]
    rfl
  obtain ⟨r, hr⟩ := h.returns
  rw [dispatchRaw_of_escaping noopTable () herr rfl] at hr
  cases hr

end CommandHandler

end Obcsw
