import Obcsw.Survival

/-!
# Commands from the ground

The document that names a command has its five fields under their keys. The decoder takes a
written document back to its command, whatever the clock says, and refuses it just when the
opcode is not one of the list (`written`). So the decoder reaches every command that can be
written down.

End to end : strings that are the texts of some commands, with texts that do not parse in
between, leave the process having dispatched these commands, cut at the depth of the queue,
under every interleaving (`arrives`).
-/

set_option linter.unusedSectionVars false

open Exceptions

namespace Obcsw

namespace CommandDeserializer

/-! ## The document of a command -/

/-- The tree of a command, in key order. -/
def commandTree (cmd : Command) : Json :=
  .object [
    ("opcode", .unsigned cmd.opcode.toByte.toUInt64),
    ("parameters", cmd.parameters),
    ("sequence_number", .unsigned cmd.sequence_number.toUInt64),
    ("subsystem", .string cmd.subsystem),
    ("timestamp_ms", .unsigned cmd.timestamp_ms)]

theorem canonical_commandTree (cmd : Command) :
    (commandTree cmd).canonical = cmd.parameters.canonical := by
  simp [-String.lt_iff_ltb, commandTree, Json.canonical, Json.everywhere, Json.everywhereFields]

theorem utf8_commandTree (cmd : Command) : (commandTree cmd).utf8 =
    (cmd.parameters.utf8 && validUtf8 cmd.subsystem) := by
  simp [commandTree, Json.utf8, Json.everywhere, Json.everywhereFields]

/-- The decoder reads every field where the document has it. -/
theorem decode_commandTree (L : JsonLibrary) (now : UInt64) (cmd : Command) :
    decode L now (commandTree cmd) =
      if cmd.opcode = .UNKNOWN then .error (unknownOpcode 0xFF) else .ok cmd := by
  obtain ⟨sequence_number, opcode, subsystem, parameters, timestamp_ms⟩ := cmd
  have hbyte : (Json.unsigned opcode.toByte.toUInt64).getU8 L = .ok opcode.toByte := by
    cases opcode <;> rfl
  have hseq : (Json.unsigned sequence_number.toUInt64).getU32 L = .ok sequence_number := by
    simp [Json.getU32, Json.getUnsigned, Except.map]
  have htime : (Json.unsigned timestamp_ms).getU64 L = .ok timestamp_ms := by
    simp [Json.getU64, Json.getUnsigned, Except.map]
  simp only [decode, Json.contains, Json.find, commandTree, List.lookup_cons_self,
    Option.isSome_some, Bool.not_true, List.lookup_cons, String.reduceBEq, Bool.or_self,
    Bool.false_eq_true, ↓reduceIte, Json.atKey, throw_eq_error, Json.valueOr, Json.getString,
    Json.getJson, htime, pure_eq_ok, ok_bind, error_bind, hbyte, hseq]
  by_cases hopcode : opcode = .UNKNOWN
  · subst hopcode
    rfl
  · rw [resolveOpcode_toByte hopcode, if_neg hopcode, if_neg hopcode]

/-! ## Written documents -/

section Written

variable {L : JsonLibrary} (hL : L.Lawful) {cmd : Command} {text : Bytes}

include hL

/-- What the decoder makes of a written document. -/
theorem fromJson_written (hcanonical : cmd.parameters.canonical = true)
    (htext : L.dump (commandTree cmd) = .ok text) (now : UInt64) : fromJson L now text =
      if cmd.opcode = .UNKNOWN then .error (unknownOpcode 0xFF)
      else .ok { cmd with parameters := cmd.parameters.nullify } := by
  have hparse : L.parse text = .ok (commandTree cmd).nullify := by
    refine hL.parse_dump _ text ?_ (Json.finite_nullify _) ?_
    · rw [Json.canonical_nullify, canonical_commandTree, hcanonical]
    · rw [hL.dump_nullify, htext]
  rw [fromJson, JsonLibrary.parseThrowing, hparse]
  exact decode_commandTree L now { cmd with parameters := cmd.parameters.nullify }

/-- A decoded command can be written down. -/
theorem writable_of_fromJson {now : UInt64} (h : fromJson L now text = .ok cmd) :
    cmd.opcode ≠ .UNKNOWN ∧ (commandTree cmd).utf8 = true := by
  refine ⟨opcode_of_fromJson h, ?_⟩
  rcases fromJson_cases L now text with ⟨w, -, hf⟩ | ⟨w, -, hf⟩ | ⟨j, hp, hf⟩
  · cases h.symm.trans hf
  · cases h.symm.trans hf
  · have hspec := decode_spec L now j
    rw [← hf, h] at hspec
    cases hspec with
    | command v raw _ hv hseq hraw hop hcmd hsub hts hcsub hcpar hcts =>
      rw [utf8_commandTree, parameters_utf8 hL h, Bool.true_and]
      cases hfind : j.find "subsystem" with
      | none =>
        obtain ⟨op, hopcode, -⟩ := hraw
        rw [Json.valueOr_of_absent _ _ (Json.contains_iff.mpr ⟨op, hopcode⟩) hfind] at hcsub
        rw [← Except.ok.inj hcsub]
        decide +kernel
      | some sub =>
        rw [Json.valueOr_of_find _ _ hfind] at hcsub
        have hutf8 := Json.everywhere_find (hL.parse_utf8 text j hp) hfind
        cases sub with
        | string s =>
          obtain rfl := Except.ok.inj hcsub
          exact hutf8
        | _ => cases hcsub

/-- The commands whose texts fail to be written. -/
theorem writes_iff : (∃ text, L.dump (commandTree cmd) = .ok text) ↔
    cmd.parameters.utf8 = true ∧ validUtf8 cmd.subsystem = true := by
  rw [hL.dump_ok_iff, utf8_commandTree, Bool.and_eq_true]

/-- The commands that some text decodes to, at some time. -/
theorem decodes_iff (hcanonical : cmd.parameters.canonical = true)
    (hfinite : cmd.parameters.finite = true) :
    (∃ text now, fromJson L now text = .ok cmd) ↔ cmd.opcode ≠ .UNKNOWN ∧
      cmd.parameters.utf8 = true ∧ validUtf8 cmd.subsystem = true := by
  constructor
  · rintro ⟨text, now, h⟩
    obtain ⟨hopcode, hutf8⟩ := writable_of_fromJson hL h
    exact ⟨hopcode, (writes_iff hL).mp ((hL.dump_ok_iff _).mpr hutf8)⟩
  · rintro ⟨hopcode, hutf8⟩
    obtain ⟨text, htext⟩ := (writes_iff hL).mpr hutf8
    refine ⟨text, 0, ?_⟩
    rw [fromJson_written hL hcanonical htext, if_neg hopcode, Json.nullify_of_finite hfinite]

end Written

/-- The decoder on the documents of commands. -/
structure Written (L : JsonLibrary) (cmd : Command) : Prop where
  /-- Every command can be written down but for text that is not UTF-8. -/
  writes : (∃ text, L.dump (commandTree cmd) = .ok text) ↔
    cmd.parameters.utf8 = true ∧ validUtf8 cmd.subsystem = true
  /-- A written command is read back, or refused for its opcode, at any time. A double that
  is not finite comes back as null. -/
  reads : ∀ text now, L.dump (commandTree cmd) = .ok text → fromJson L now text =
    if cmd.opcode = .UNKNOWN then .error (unknownOpcode 0xFF)
    else .ok { cmd with parameters := cmd.parameters.nullify }
  /-- No text at all decodes to a command that cannot be written down and read back. -/
  decodes : cmd.parameters.finite = true → ((∃ text now, fromJson L now text = .ok cmd) ↔
    cmd.opcode ≠ .UNKNOWN ∧ cmd.parameters.utf8 = true ∧ validUtf8 cmd.subsystem = true)

theorem written {L : JsonLibrary} (hL : L.Lawful) {cmd : Command}
    (hcanonical : cmd.parameters.canonical = true) : Written L cmd where
  writes := writes_iff hL
  reads _ now htext := fromJson_written hL hcanonical htext now
  decodes := decodes_iff hL hcanonical

/-! ### A command to try -/

def scienceMode : Command where
  sequence_number := 2
  opcode := .SET_MODE
  subsystem := bytes "payload"
  parameters := .object [("mode", .string (bytes "science"))]
  timestamp_ms := 7

def scienceText : Bytes :=
  bytes ("\x7b\"opcode\":16,\"parameters\":\x7b\"mode\":\"science\"\x7d," ++
    "\"sequence_number\":2,\"subsystem\":\"payload\",\"timestamp_ms\":7\x7d")

/-- A library that writes the command as this text. -/
noncomputable def scienceLibrary : JsonLibrary :=
  .pinned (commandTree scienceMode) scienceText

theorem scienceLibrary_lawful : scienceLibrary.Lawful :=
  JsonLibrary.pinned_lawful (by decide +kernel)

theorem dump_scienceMode : scienceLibrary.dump (commandTree scienceMode) = .ok scienceText :=
  JsonLibrary.dump_pinned_self (by decide +kernel) (by decide +kernel)

theorem written_scienceMode : Written scienceLibrary scienceMode ∧
    ∀ now, fromJson scienceLibrary now scienceText = .ok scienceMode :=
  ⟨written scienceLibrary_lawful (by decide +kernel), fun now =>
    (written scienceLibrary_lawful (by decide +kernel)).reads _ now dump_scienceMode⟩

end CommandDeserializer

namespace Process

open CommandDeserializer
open Main (decoded)

/-! ## From the ground to the handlers -/

/-- The strings are the texts of the commands in order, with texts that do not parse among
them. -/
inductive Sends (L : JsonLibrary) : List Command → List Uplink → Prop
  | nil : Sends L [] []
  | command {cmd cmds uplink uplinks} (hopcode : cmd.opcode ≠ .UNKNOWN)
      (hcanonical : cmd.parameters.canonical = true) (hfinite : cmd.parameters.finite = true)
      (htext : L.dump (commandTree cmd) = .ok uplink.json) (h : Sends L cmds uplinks) :
      Sends L (cmd :: cmds) (uplink :: uplinks)
  | noise {cmds uplink uplinks failure} (hparse : L.parse uplink.json = .error failure)
      (h : Sends L cmds uplinks) : Sends L cmds (uplink :: uplinks)

section Arrives

variable {cfg : SatelliteConfig} {L : JsonLibrary} {cmds : List Command} {uplinks : List Uplink}

/-- The strings decode to the commands. -/
theorem Sends.decoded (hL : L.Lawful) (h : Sends L cmds uplinks) :
    uplinks.filterMap (decoded L) = cmds := by
  induction h with
  | nil => rfl
  | @command cmd cmds uplink uplinks hopcode hcanonical hfinite htext _ ih =>
    have hread : fromJson L uplink.now uplink.json = .ok cmd := by
      rw [fromJson_written hL hcanonical htext, if_neg hopcode, Json.nullify_of_finite hfinite]
    have hdec : Main.decoded L uplink = some cmd := by
      rw [Main.decoded, hread]
      rfl
    rw [List.filterMap_cons_some hdec, ih]
  | @noise cmds uplink uplinks failure hparse _ ih =>
    have hdec : Main.decoded L uplink = none := by
      rw [Main.decoded]
      rcases fromJson_cases L uplink.now uplink.json with ⟨w, -, hf⟩ | ⟨w, -, hf⟩ | ⟨j, hp, -⟩
      · rw [hf]
        rfl
      · rw [hf]
        rfl
      · cases hparse.symm.trans hp
    rw [List.filterMap_cons_none hdec, ih]

/-- What the process has made of the commands. -/
structure Arrived (cmds : List Command) (s : State cfg) : Prop where
  before : s.concluded = 0 → Event.dispatched s.events = []
  /-- The commands that fit into the queue are dispatched, as they were sent, by the first
  iteration. -/
  after : 0 < s.concluded → s.vars.cmd_queue.m_queue = [] ∧
    Event.dispatched s.events = cmds.take cfg.command_max_queue_depth.toNat

/-- Commands arrive as they were sent, whatever stands between them and however the threads
interleave. -/
theorem arrives (hL : L.Lawful) (hsends : Sends L cmds uplinks) {s : State cfg}
    (h : (system cfg L uplinks).Reachable s) : Arrived cmds s := by
  have hs := (serves_reachable hL h).dispatched
  rw [uplinked, hsends.decoded hL] at hs
  exact ⟨hs.1, hs.2⟩

end Arrives

/-- The command arrives, with a text in front of it that is not JSON. -/
theorem arrives_scienceMode : ∃ s : State {}, Arrived [scienceMode] s ∧
    Event.dispatched s.events = [scienceMode] := by
  have hnoise : scienceLibrary.parse (bytes "noise") = .error (.parse_error "syntax error") :=
    JsonLibrary.parse_pinned_of_ne (by decide +kernel) (by decide +kernel)
  have hsends : Sends scienceLibrary [scienceMode] [⟨bytes "noise", 0⟩, ⟨scienceText, 5⟩] :=
    .noise hnoise (.command nofun (by decide +kernel) (by decide +kernel) dump_scienceMode .nil)
  obtain ⟨s, hr, hpos⟩ := @exists_concluded {} scienceLibrary
    [⟨bytes "noise", 0⟩, ⟨scienceText, 5⟩] scienceLibrary_lawful (by decide)
  have hs := arrives scienceLibrary_lawful hsends hr
  exact ⟨s, hs, (hs.after hpos).2⟩

end Process

end Obcsw
