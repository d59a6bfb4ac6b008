import Obcsw.Health

/-!
# Uplink

What becomes of the strings `main` injects before its loop. `injectCmd` reports a string that
does not decode, but looks away from the answer of `push` : a command that does not fit into
the queue is gone without a word. The queue then holds the decoded commands up to its depth
(`injectAll_returns`), the first iteration dispatches exactly these (`session_dispatched`), and
nothing is lost just when all decoded commands fit (`nothingLost_iff`).
-/

set_option linter.unusedSectionVars false

open Exceptions Program

namespace Obcsw

/-- An uplink string, and the clock when it is parsed. -/
structure Uplink where
  json : Bytes
  now : UInt64 := 0

namespace Main

open CommandDeserializer (fromJson)

section Uplink

variable (cfg : SatelliteConfig) (L : JsonLibrary)

/-! ## The code -/

/-- The injections of `main`, in order. -/
def injectAll (uplinks : List Uplink) : Obc (MainState cfg) PUnit :=
  uplinks.forM fun uplink => injectCmd L uplink.now uplink.json

/-- `main` from the first injection to the end of the loop. -/
def session (uplinks : List Uplink) (ticks : List Tick) : Obc (MainState cfg) PUnit := do
  injectAll cfg L uplinks
  loop cfg (registerCommandHandlers L {}) ticks

/-! ## What becomes of the strings -/

/-- The strings in order, each with a report on `std::cerr` among some events, or with the
dispatch of its command among some dispatches; every event and every dispatch belongs to one
string. -/
inductive Matches : List Uplink → List Event → List Command → Prop
  | nil : Matches [] [] []
  | dispatched {uplink uplinks es ds cmd} (hcmd : fromJson L uplink.now uplink.json = .ok cmd)
      (h : Matches uplinks es ds) : Matches (uplink :: uplinks) es (cmd :: ds)
  | reported {uplink uplinks es ds} (text : Bytes) (h : Matches uplinks es ds) :
      Matches (uplink :: uplinks) (.cerr text :: es) ds

/-- Every string leads to a report when it is injected, or to exactly one dispatch of the
whole session, in the order of the strings. -/
def NothingLost (uplinks : List Uplink) (ticks : List Tick) : Prop :=
  Matches L uplinks ((injectAll cfg L uplinks).run {}).events
    (Event.dispatched ((session cfg L uplinks ticks).run {}).events)

/-- The command of a string that decodes. -/
def decoded (uplink : Uplink) : Option Command :=
  (fromJson L uplink.now uplink.json).toOption

/-- The report of a string that does not decode. -/
def reports (uplink : Uplink) : List Event :=
  match fromJson L uplink.now uplink.json with
  | .ok _ => []
  | .error e => [.cerr (bytes ("[MAIN] Bad test command: " ++ e.what ++ "\n"))]

variable {cfg L}

theorem Matches.length {uplinks : List Uplink} {es : List Event} {ds : List Command}
    (h : Matches L uplinks es ds) : uplinks.length = es.length + ds.length := by
  induction h with
  | nil => rfl
  | dispatched _ _ ih => rw [List.length_cons, List.length_cons, ih, Nat.add_assoc]
  | reported _ _ ih => rw [List.length_cons, List.length_cons, ih, Nat.succ_add]

theorem fromJson_of_decoded {uplink : Uplink} {cmd : Command} (h : decoded L uplink = some cmd) :
    fromJson L uplink.now uplink.json = .ok cmd := by
  rw [decoded] at h
  revert h
  cases fromJson L uplink.now uplink.json with
  | ok cmd' => exact fun h => congrArg Except.ok (Option.some.inj h)
  | error e => rintro ⟨⟩

/-- The decoded commands and the reports of the other strings account for every string. -/
theorem matches_decoded (uplinks : List Uplink) :
    Matches L uplinks (uplinks.flatMap (reports L)) (uplinks.filterMap (decoded L)) := by
  induction uplinks with
  | nil => exact .nil
  | cons uplink uplinks ih =>
    cases h : fromJson L uplink.now uplink.json with
    | ok cmd =>
      have hdec : decoded L uplink = some cmd := by rw [decoded, h]; rfl
      have hrep : reports L uplink = [] := by rw [reports, h]
      rw [List.flatMap_cons, hrep, List.filterMap_cons_some hdec]
      exact .dispatched h ih
    | error e =>
      have hdec : decoded L uplink = none := by rw [decoded, h]; rfl
      rw [List.flatMap_cons, reports, h, List.filterMap_cons_none hdec]
      exact .reported _ ih

/-! ## Injection -/

/-- The variables after an injection. -/
def injected (L : JsonLibrary) (s : MainState cfg) (uplink : Uplink) : MainState cfg :=
  match decoded L uplink with
  | some cmd => { s with cmd_queue := (s.cmd_queue.push cmd).2 }
  | none => s

/-- An injection always returns. -/
theorem injectCmd_returns (uplink : Uplink) (s : MainState cfg) :
    (injectCmd L uplink.now uplink.json).Returns s (reports L uplink) ⟨⟩ (injected L s uplink) := by
  unfold Prog.Returns injectCmd reports injected decoded
  cases h : fromJson L uplink.now uplink.json with
  | ok cmd => exact tryCatch_of_ok rfl
  | error e =>
    rw [tryCatch_of_caught rfl (by rw [if_pos e.isA_exception])]
    rfl

/-- Cutting a list before appending to it makes no difference to the cut of the whole. -/
theorem take_append_take {α : Type} (l l' : List α) (n : ℕ) :
    (l.take n ++ l').take n = (l ++ l').take n := by
  rcases Nat.le_total n l.length with h | h
  · have htake : n ≤ (l.take n).length := by
      rw [List.length_take]
      omega
    rw [List.take_append_of_le_length h, List.take_append_of_le_length htake, List.take_take,
      Nat.min_self]
  · rw [List.take_of_length_le h]

theorem foldl_injected (uplinks : List Uplink) (s : MainState cfg) :
    ∃ q, uplinks.foldl (injected L) s = { s with cmd_queue := q } ∧ q.m_queue =
      (s.cmd_queue.m_queue ++ uplinks.filterMap (decoded L)).take
        cfg.command_max_queue_depth.toNat := by
  induction uplinks generalizing s with
  | nil =>
    refine ⟨s.cmd_queue, rfl, ?_⟩
    rw [List.filterMap_nil, List.append_nil, List.take_of_length_le s.cmd_queue.bound]
  | cons uplink uplinks ih =>
    rw [List.foldl_cons]
    obtain ⟨q, hs, hq⟩ := ih (injected L s uplink)
    refine ⟨q, ?_, ?_⟩
    · rw [hs]
      unfold injected
      cases decoded L uplink <;> rfl
    · rw [hq]
      unfold injected
      cases hdec : decoded L uplink with
      | none => rw [List.filterMap_cons_none hdec]
      | some cmd =>
        rw [List.filterMap_cons_some hdec, s.cmd_queue.push_queue cmd, take_append_take,
          List.append_assoc, List.singleton_append]

/-- The injections return, with the decoded commands in the queue up to its depth. -/
theorem injectAll_returns (uplinks : List Uplink) (s : MainState cfg) :
    ∃ q, (injectAll cfg L uplinks).Returns s (uplinks.flatMap (reports L)) ⟨⟩
        { s with cmd_queue := q } ∧
      q.m_queue = (s.cmd_queue.m_queue ++ uplinks.filterMap (decoded L)).take
        cfg.command_max_queue_depth.toNat := by
  obtain ⟨q, hs, hq⟩ := foldl_injected (L := L) uplinks s
  refine ⟨q, ?_, hq⟩
  rw [← hs]
  exact Prog.Returns.forM injectCmd_returns uplinks s

theorem dispatched_reports (uplinks : List Uplink) :
    Event.dispatched (uplinks.flatMap (reports L)) = [] := by
  refine List.filterMap_eq_nil_iff.mpr fun e he => ?_
  obtain ⟨uplink, -, he⟩ := List.mem_flatMap.mp he
  unfold reports at he
  split at he
  · cases he
  · obtain rfl := List.mem_singleton.mp he
    rfl

/-! ## The first iteration -/

/-- The handlers of the program return on a decoded command : its parameters can be dumped. -/
theorem dispatch_decoded_returns (hL : L.Lawful) {uplink : Uplink} {cmd : Command}
    (h : decoded L uplink = some cmd) (s : MainState cfg) :
    ∃ r, (((registerCommandHandlers L {}).dispatch cmd).run s).result = .ok r := by
  have hok := fromJson_of_decoded h
  obtain ⟨text, hd⟩ :=
    (hL.dump_ok_iff cmd.parameters).mpr (CommandDeserializer.parameters_utf8 hL hok)
  refine CommandHandler.dispatch_returns
    (callbacks_registered L (fun _ _ => ⟨.SUCCESS, rfl⟩) fun _ => ⟨.SUCCESS, ?_⟩) s
  simp [setMode, JsonLibrary.dumpThrowing, hd, Except.mapError, Outcome.after]

/-- An iteration dispatches the commands of the queue, when the handlers return on them. -/
theorem iteration_dispatched {H : CommandHandler (MainState cfg)}
    (hH : ∀ cmd, Harmless (H.dispatch cmd)) {s : MainState cfg} {hist : List TelemetryFrame}
    (h : Tracks s hist) (tick : Tick)
    (hs : ∀ cmd ∈ s.cmd_queue.m_queue, ∀ w, ∃ r, ((H.dispatch cmd).run w).result = .ok r) :
    ((iteration cfg H tick).run s).result = .ok ⟨⟩ ∧
      ((iteration cfg H tick).run s).state.cmd_queue.m_queue = [] ∧
      Event.dispatched ((iteration cfg H tick).run s).events = s.cmd_queue.m_queue := by
  obtain ⟨es, hobserve, -, hd⟩ := observe_returns h tick
  unfold Prog.Returns at hobserve
  obtain ⟨hok, hempty, hd'⟩ := drainQueue_returns hH
    (s := evaluated s (measured cfg s.frame_id tick)) hs
  rw [iteration, bind_run, hobserve, Outcome.andThen_ok]
  refine ⟨hok, hempty, ?_⟩
  rw [Outcome.after, Event.dispatched_append, hd, hd']
  rfl

/-- The loop dispatches the commands of the queue first, and goes on with an empty queue. -/
theorem loop_cons_dispatched {H : CommandHandler (MainState cfg)}
    (hH : ∀ cmd, Harmless (H.dispatch cmd)) {s : MainState cfg} {hist : List TelemetryFrame}
    (h : Tracks s hist) (tick : Tick) (ticks : List Tick)
    (hs : ∀ cmd ∈ s.cmd_queue.m_queue, ∀ w, ∃ r, ((H.dispatch cmd).run w).result = .ok r) :
    ∃ s', Tracks s' (hist ++ [measured cfg s.frame_id tick]) ∧ s'.cmd_queue.m_queue = [] ∧
      Event.dispatched ((loop cfg H (tick :: ticks)).run s).events =
        s.cmd_queue.m_queue ++ Event.dispatched ((loop cfg H ticks).run s').events := by
  obtain ⟨hok, hempty, hd⟩ := iteration_dispatched hH h tick hs
  obtain ⟨-, htracks, -⟩ := iteration_run hH h tick
  rw [loop_cons, bind_run]
  rcases hrun : (iteration cfg H tick).run s with ⟨es, s', r⟩
  rw [hrun] at hok hempty hd htracks
  simp only at hok hempty hd htracks
  subst hok
  refine ⟨s', htracks, hempty, ?_⟩
  rw [Outcome.andThen_ok, Outcome.after, Event.dispatched_append, hd]

/-- With nothing in the queue, the loop dispatches nothing. -/
theorem loop_dispatched_of_nil {H : CommandHandler (MainState cfg)}
    (hH : ∀ cmd, Harmless (H.dispatch cmd)) : ∀ (ticks : List Tick) {s : MainState cfg}
    {hist : List TelemetryFrame}, Tracks s hist → s.cmd_queue.m_queue = [] →
    Event.dispatched ((loop cfg H ticks).run s).events = []
  | [], _, _, _, _ => rfl
  | tick :: ticks, s, hist, h, hq => by
    obtain ⟨s', htracks, hempty, hd⟩ :=
      loop_cons_dispatched hH h tick ticks (by rw [hq]; exact fun _ hcmd => nomatch hcmd)
    rw [hd, hq, loop_dispatched_of_nil hH ticks htracks hempty]
    rfl

/-- The session dispatches the decoded commands that fit into the queue, in order. -/
theorem session_dispatched (hL : L.Lawful) (uplinks : List Uplink) (tick : Tick)
    (ticks : List Tick) :
    Event.dispatched ((session cfg L uplinks (tick :: ticks)).run {}).events =
      (uplinks.filterMap (decoded L)).take cfg.command_max_queue_depth.toNat := by
  obtain ⟨q, hinject, hq⟩ := injectAll_returns (L := L) uplinks ({} : MainState cfg)
  rw [show ({} : MainState cfg).cmd_queue.m_queue = [] from rfl, List.nil_append] at hq
  have hreturn : ∀ cmd ∈ q.m_queue, ∀ w : MainState cfg, ∃ r,
      (((registerCommandHandlers L {}).dispatch cmd).run w).result = .ok r := by
    intro cmd hcmd
    rw [hq] at hcmd
    obtain ⟨uplink, -, hdec⟩ := List.mem_filterMap.mp (List.mem_of_mem_take hcmd)
    exact dispatch_decoded_returns hL hdec
  have hstart := tracks_start q
  obtain ⟨s', htracks, hempty, hd⟩ :=
    loop_cons_dispatched (harmless_registered L) hstart tick ticks hreturn
  unfold Prog.Returns at hinject
  rw [session, bind_run, hinject, Outcome.andThen_ok, Outcome.after, Event.dispatched_append,
    dispatched_reports, List.nil_append, hd, loop_dispatched_of_nil _ ticks htracks hempty,
    List.append_nil, hq]
  exact harmless_registered L

/-! ## The result -/

/-- The reports of the session's injections. -/
theorem injectAll_events (uplinks : List Uplink) :
    ((injectAll cfg L uplinks).run {}).events = uplinks.flatMap (reports L) := by
  obtain ⟨q, hinject, -⟩ := injectAll_returns (L := L) uplinks ({} : MainState cfg)
  exact congrArg Outcome.events hinject

/-- When nothing is lost, no decoded command is beyond the depth. -/
theorem NothingLost.length_le (hL : L.Lawful) {uplinks : List Uplink} {tick : Tick}
    {ticks : List Tick} (h : NothingLost cfg L uplinks (tick :: ticks)) :
    (uplinks.filterMap (decoded L)).length ≤ cfg.command_max_queue_depth.toNat := by
  have hkept := Matches.length h
  have hall := (matches_decoded (L := L) uplinks).length
  rw [injectAll_events, session_dispatched hL, List.length_take] at hkept
  omega

/-- Nothing is lost exactly when the commands that decode fit into the queue. -/
theorem nothingLost_iff (hL : L.Lawful) (uplinks : List Uplink) (tick : Tick) (ticks : List Tick) :
    NothingLost cfg L uplinks (tick :: ticks) ↔
      (uplinks.filterMap (decoded L)).length ≤ cfg.command_max_queue_depth.toNat := by
  constructor
  · exact fun h => h.length_le hL
  · intro hfit
    unfold NothingLost
    rw [injectAll_events, session_dispatched hL, List.take_of_length_le hfit]
    exact matches_decoded uplinks

end Uplink

/-- `{"opcode":1,"sequence_number":1}` -/
def noop : Json :=
  .object [("opcode", .unsigned 1), ("sequence_number", .unsigned 1)]

def noopText : Bytes :=
  bytes "\x7b\"opcode\":1,\"sequence_number\":1\x7d"

/-- A lawful library for the text. -/
noncomputable def noopLibrary : JsonLibrary :=
  .pinned noop noopText

theorem noopLibrary_lawful : noopLibrary.Lawful :=
  JsonLibrary.pinned_lawful (by decide +kernel)

theorem decoded_noop : decoded noopLibrary ⟨noopText, 0⟩ =
    some { sequence_number := 1, opcode := .NOOP, parameters := .object [] } := by
  have hparse : noopLibrary.parse noopText = .ok noop :=
    noopLibrary_lawful.parse_dump noop noopText (by decide +kernel) (by decide +kernel)
      (JsonLibrary.dump_pinned_self (by decide +kernel) (by decide +kernel))
  rw [decoded, fromJson, JsonLibrary.parseThrowing, hparse]
  rfl

/-- The three strings of a session fit into the default queue. -/
theorem nothingLost_threeNoops :
    NothingLost {} noopLibrary (List.replicate 3 ⟨noopText, 0⟩) twoTicks := by
  refine (nothingLost_iff noopLibrary_lawful _ _ _).mpr ?_
  rw [List.filterMap_replicate_of_some decoded_noop, List.length_replicate]
  decide

/-- The default queue holds 32 commands : the last of 33 is lost. -/
theorem not_nothingLost_noops : noopLibrary.Lawful ∧
    ¬NothingLost {} noopLibrary (List.replicate 33 ⟨noopText, 0⟩) twoTicks := by
  refine ⟨noopLibrary_lawful, fun h => ?_⟩
  have hlen := h.length_le noopLibrary_lawful
  rw [List.filterMap_replicate_of_some decoded_noop, List.length_replicate] at hlen
  revert hlen
  decide

end Main

end Obcsw
