import Obcsw.Uplink

/-!
# Two paths for a command

`CommandHandler::dispatchRaw` parses a string and dispatches its command at once. `main` goes
another way : it parses all its strings first, keeps the commands in the queue, and dispatches
them when it drains the queue. On the handlers of the program the two paths call the same
handlers with the same commands in the same order, print the same text, and report the same
number of strings, exactly when no string makes `dispatchRaw` throw and the queue has room for
every command (`agree_iff`).
-/

set_option linter.unusedSectionVars false

open Exceptions Program

namespace Obcsw

namespace Main

open CommandDeserializer (fromJson documented fromJson_documented_iff UplinkConverts)
open CommandDrain (serve drain mainQueue drain_of_nil drain_of_cons commands_popped
  commands_mainQueue)
open CommandHandler (dispatchRaw dispatchRaw_of_ok dispatchRaw_of_documented
  dispatchRaw_of_escaping)

section Paths

variable (cfg : SatelliteConfig) (L : JsonLibrary)

/-! ## The two paths -/

/-- Every string is parsed and dispatched at once. -/
def direct (uplinks : List Uplink) : Obc (MainState cfg) PUnit :=
  uplinks.forM fun uplink => do
    let _ ← dispatchRaw L uplink.now (registerCommandHandlers L {}) uplink.json

/-- The way of `main` : the strings are injected, then the queue is drained. -/
def queued (uplinks : List Uplink) : Obc (MainState cfg) PUnit := do
  injectAll cfg L uplinks
  drainQueue (registerCommandHandlers L {})

/-- The handlers called, and the text they print. -/
def heard (es : List Event) : List Event :=
  es.filter fun
    | .cout _ | .invoke _ _ => true
    | _ => false

/-- The reports. -/
def complaints (es : List Event) : ℕ :=
  es.countP fun
    | .cerr _ => true
    | _ => false

/-- Both paths return, after the same calls and the same text, with as many reports. -/
structure Agree (uplinks : List Uplink) : Prop where
  direct_returns : ((direct cfg L uplinks).run {}).result = .ok ⟨⟩
  queued_returns : ((queued cfg L uplinks).run {}).result = .ok ⟨⟩
  heard : heard ((direct cfg L uplinks).run {}).events =
    heard ((queued cfg L uplinks).run {}).events
  complaints : complaints ((direct cfg L uplinks).run {}).events =
    complaints ((queued cfg L uplinks).run {}).events

variable {cfg L}

theorem heard_append (es es' : List Event) : heard (es ++ es') = heard es ++ heard es' :=
  List.filter_append ..

theorem complaints_append (es es' : List Event) :
    complaints (es ++ es') = complaints es + complaints es' :=
  List.countP_append ..

/-! ## The handlers of the program -/

/-- The dispatch of the command succeeds, calls its handler, and prints. -/
structure Shows (cfg : SatelliteConfig) (L : JsonLibrary) (cmd : Command) (es : List Event) :
    Prop where
  returns : ∀ w : MainState cfg,
    ((registerCommandHandlers L {}).dispatch cmd).Returns w es .SUCCESS w
  heard : heard es = es
  complaints : complaints es = 0
  invocations : Event.invocations es = [(cmd.opcode.toByte, cmd)]

/-- A handler that prints `es` and succeeds. -/
def Prints (cfg : SatelliteConfig) (cmd : Command)
    (f : Command → Obc (MainState cfg) CommandResult) : Prop :=
  ∃ texts : List Bytes, ∀ w, (f cmd).Returns w (texts.map .cout) .SUCCESS w

theorem prints_registered {cmd : Command} {text : Bytes} (h : L.dump cmd.parameters = .ok text) :
    (registerCommandHandlers L {}).Callbacks (Prints cfg cmd) := by
  refine callbacks_registered L (fun line => ⟨[line cmd], fun w => rfl⟩) ?_
  refine ⟨[bytes "[CMD] SET_MODE subsystem=" ++ cmd.subsystem ++ bytes " params=",
    text ++ bytes "\n"], fun w => ?_⟩
  simp [Prog.Returns, setMode, JsonLibrary.dumpThrowing, h, Except.mapError]

variable (cfg L) in
/-- The opcodes of the list have their handlers. -/
theorem registered_of_ne {opcode : Opcode} (h : opcode ≠ .UNKNOWN) :
    ∃ callback, (registerCommandHandlers L {} : CommandHandler (MainState cfg)).m_handlers
      opcode.toByte = some callback := by
  cases opcode with
  | UNKNOWN => exact absurd rfl h
  | _ => exact ⟨_, rfl⟩

theorem heard_couts (texts : List Bytes) : heard (texts.map .cout) = texts.map .cout := by
  induction texts with
  | nil => rfl
  | cons text texts ih => exact congrArg (Event.cout text :: ·) ih

theorem invocations_couts (texts : List Bytes) : Event.invocations (texts.map .cout) = [] := by
  induction texts with
  | nil => rfl
  | cons text texts ih => exact ih

theorem complaints_of_heard {es : List Event} (h : heard es = es) : complaints es = 0 := by
  refine List.countP_eq_zero.mpr fun e he => ?_
  rw [← h] at he
  have hkept := (List.mem_filter.mp he).2
  cases e <;> simp_all

variable (cfg L) in
/-- What the dispatch of a command shows. -/
def shown (cmd : Command) : List Event :=
  (((registerCommandHandlers L {}).dispatch cmd).run ({} : MainState cfg)).events

variable (cfg) in
/-- The dispatch of a decoded command shows the same from any variables. -/
theorem shows_of_decoded (hL : L.Lawful) {uplink : Uplink} {cmd : Command}
    (h : decoded L uplink = some cmd) : Shows cfg L cmd (shown cfg L cmd) := by
  have hok := fromJson_of_decoded h
  obtain ⟨text, hdump⟩ :=
    (hL.dump_ok_iff cmd.parameters).mpr (CommandDeserializer.parameters_utf8 hL hok)
  obtain ⟨callback, hcallback⟩ :=
    registered_of_ne cfg L (CommandDeserializer.opcode_of_fromJson hok)
  obtain ⟨f, rfl, texts, hf⟩ := prints_registered hdump _ _ hcallback
  have hreturns : ∀ w : MainState cfg, ((registerCommandHandlers L {}).dispatch cmd).Returns w
      (.invoke cmd.opcode.toByte cmd :: texts.map .cout) .SUCCESS w := by
    intro w
    have hrun := hf w
    unfold Prog.Returns at hrun ⊢
    simp [CommandHandler.dispatch, hcallback, CommandHandler.call, hrun]
  have hshown : shown cfg L cmd = .invoke cmd.opcode.toByte cmd :: texts.map .cout :=
    congrArg Outcome.events (hreturns {})
  rw [hshown]
  have hheard : heard (.invoke cmd.opcode.toByte cmd :: texts.map .cout) =
      .invoke cmd.opcode.toByte cmd :: texts.map .cout :=
    congrArg (Event.invoke cmd.opcode.toByte cmd :: ·) (heard_couts texts)
  exact ⟨hreturns, hheard, complaints_of_heard hheard,
    congrArg ((cmd.opcode.toByte, cmd) :: ·) (invocations_couts texts)⟩

/-! ## The direct path -/

variable (cfg L) in
/-- What `dispatchRaw` shows. -/
def told (uplink : Uplink) : List Event :=
  ((dispatchRaw L uplink.now (registerCommandHandlers L {}) uplink.json).run
    ({} : MainState cfg)).events

/-- `dispatchRaw` on one string. -/
structure Tells (cfg : SatelliteConfig) (L : JsonLibrary) (uplink : Uplink) (es : List Event) :
    Prop where
  returns : ∀ w : MainState cfg, ∃ r,
    (dispatchRaw L uplink.now (registerCommandHandlers L {}) uplink.json).Returns w es r w
  heard : heard es = (decoded L uplink).toList.flatMap (shown cfg L)
  complaints : complaints es = if (decoded L uplink).isSome then 0 else 1

variable (cfg) in
theorem tells_of_converts (hL : L.Lawful) {uplink : Uplink}
    (h : UplinkConverts L uplink.json) : Tells cfg L uplink (told cfg L uplink) := by
  cases hf : fromJson L uplink.now uplink.json with
  | ok cmd =>
    have hdec : decoded L uplink = some cmd := by
      rw [decoded, hf]
      rfl
    have hshows := shows_of_decoded cfg hL hdec
    have hrun := fun w : MainState cfg =>
      (dispatchRaw_of_ok (registerCommandHandlers L {}) w hf).trans (hshows.returns w)
    have htold : told cfg L uplink = shown cfg L cmd :=
      congrArg Outcome.events (dispatchRaw_of_ok _ ({} : MainState cfg) hf)
    rw [htold]
    refine ⟨fun w => ⟨_, hrun w⟩, ?_, ?_⟩
    · rw [hdec, hshows.heard]
      exact (List.append_nil _).symm
    · rw [hdec, hshows.complaints]
      rfl
  | error e =>
    have hdec : decoded L uplink = none := by
      rw [decoded, hf]
      rfl
    have hdoc := (fromJson_documented_iff L uplink.now uplink.json).mpr h e hf
    obtain ⟨text, hrun⟩ :=
      CommandHandler.exists_rejection (registerCommandHandlers L {}) hf hdoc
    have htold : told cfg L uplink = [.cerr text] :=
      congrArg Outcome.events (hrun ({} : MainState cfg))
    rw [htold]
    exact ⟨fun w => ⟨_, hrun w⟩, by rw [hdec]; rfl, by rw [hdec]; rfl⟩

variable (cfg L) in
/-- The reports of the direct path, and what its handlers show. -/
theorem direct_returns (hL : L.Lawful) : ∀ (uplinks : List Uplink),
    (∀ uplink ∈ uplinks, UplinkConverts L uplink.json) → ∃ es, (∀ w : MainState cfg,
      (direct cfg L uplinks).Returns w es ⟨⟩ w) ∧
      heard es = (uplinks.filterMap (decoded L)).flatMap (shown cfg L) ∧
      complaints es + (uplinks.filterMap (decoded L)).length = uplinks.length
  | [], _ => ⟨[], fun _ => rfl, rfl, rfl⟩
  | uplink :: uplinks, h => by
    obtain ⟨hfirst, hrest⟩ := List.forall_mem_cons.mp h
    have htells := tells_of_converts cfg hL hfirst
    obtain ⟨es, hes, hheard, hcomplaints⟩ := direct_returns hL uplinks hrest
    refine ⟨told cfg L uplink ++ es, fun w => ?_, ?_, ?_⟩
    · obtain ⟨r, hr⟩ := htells.returns w
      have hbody := hr.bind (f := fun _ => (pure ⟨⟩ : Obc (MainState cfg) PUnit)) rfl
      rw [List.append_nil] at hbody
      exact hbody.bind (hes w)
    · rw [heard_append, htells.heard, hheard]
      cases hdec : decoded L uplink with
      | none => rw [List.filterMap_cons_none hdec]; rfl
      | some cmd =>
        rw [List.filterMap_cons_some hdec, List.flatMap_cons]
        simp
    · rw [complaints_append, htells.complaints]
      cases hdec : decoded L uplink with
      | none =>
        rw [List.filterMap_cons_none hdec, List.length_cons, ← hcomplaints]
        simp only [Option.isSome_none, Bool.false_eq_true, if_false]
        omega
      | some cmd =>
        rw [List.filterMap_cons_some hdec, List.length_cons, List.length_cons, ← hcomplaints]
        simp only [Option.isSome_some, if_true]
        omega

/-- The direct path returns only if every string converts. -/
theorem converts_of_direct (hL : L.Lawful) : ∀ (uplinks : List Uplink) (w : MainState cfg),
    ((direct cfg L uplinks).run w).result = .ok ⟨⟩ →
      ∀ uplink ∈ uplinks, UplinkConverts L uplink.json
  | [], _, _ => fun _ h => absurd h List.not_mem_nil
  | uplink :: uplinks, w, h => by
    have hfirst : UplinkConverts L uplink.json := by
      rw [← fromJson_documented_iff L uplink.now]
      intro e he
      by_contra hdoc
      have hthrows : (dispatchRaw L uplink.now (registerCommandHandlers L {})
          uplink.json).Throws w [] e w :=
        dispatchRaw_of_escaping _ w he (Bool.eq_false_iff.mpr hdoc)
      have hloop : (direct cfg L (uplink :: uplinks)).Throws w [] e w :=
        (hthrows.bind _).bind _
      rw [Prog.Throws] at hloop
      rw [hloop] at h
      cases h
    obtain ⟨r, hr⟩ := (tells_of_converts cfg hL hfirst).returns w
    have hbody := hr.bind (f := fun _ => (pure ⟨⟩ : Obc (MainState cfg) PUnit)) rfl
    have hrest : ((direct cfg L uplinks).run w).result = .ok ⟨⟩ := by
      have hcons : direct cfg L (uplink :: uplinks) = (do
          let _ ← dispatchRaw L uplink.now (registerCommandHandlers L {}) uplink.json) >>=
          fun _ => direct cfg L uplinks := rfl
      rw [hcons, bind_run, hbody] at h
      exact h
    exact List.forall_mem_cons.mpr ⟨hfirst, converts_of_direct hL uplinks w hrest⟩

/-! ## The way of `main` -/

/-- The drain of a queue of decoded commands shows the dispatch of each. -/
theorem drain_shows (hL : L.Lawful) : ∀ (n : ℕ) (s : MainState cfg),
    ((mainQueue cfg).commands s).length < n →
    (∀ cmd ∈ (mainQueue cfg).commands s, ∃ uplink, decoded L uplink = some cmd) →
    ∃ es s', (drain (mainQueue cfg) (registerCommandHandlers L {}) n).Returns s es ⟨⟩ s' ∧
      heard es = ((mainQueue cfg).commands s).flatMap (shown cfg L) ∧ complaints es = 0
  | 0, _, hn, _ => absurd hn (Nat.not_lt_zero _)
  | n + 1, s, hn, hs => by
    cases hq : (mainQueue cfg).commands s with
    | nil => exact ⟨[], s, drain_of_nil hq _, rfl, rfl⟩
    | cons cmd rest =>
      have hrest := commands_popped hq
      rw [hq] at hn hs
      obtain ⟨⟨uplink, hdec⟩, hothers⟩ := List.forall_mem_cons.mp hs
      have hshows := shows_of_decoded cfg hL hdec
      have hserve : (serve (registerCommandHandlers L {}) cmd).Returns ((mainQueue cfg).popped s)
          (.dispatch cmd :: shown cfg L cmd) ⟨⟩ ((mainQueue cfg).popped s) := by
        have hret := hshows.returns ((mainQueue cfg).popped s)
        unfold Prog.Returns at hret ⊢
        simp [serve, hret]
      obtain ⟨es', s', hret, hheard, hcomplaints⟩ := drain_shows hL n ((mainQueue cfg).popped s)
        (by rw [hrest]; exact Nat.lt_of_succ_lt_succ hn) (by rw [hrest]; exact hothers)
      refine ⟨.dispatch cmd :: shown cfg L cmd ++ es', s', ?_, ?_, ?_⟩
      · unfold Prog.Returns at hserve hret ⊢
        rw [drain_of_cons hq, hserve, Outcome.andThen_ok, hret, Outcome.after_mk]
      · rw [heard_append, hheard, hrest, List.flatMap_cons]
        exact congrArg (· ++ _) hshows.heard
      · rw [complaints_append, hcomplaints]
        exact hshows.complaints

theorem heard_reports (uplinks : List Uplink) : heard (uplinks.flatMap (reports L)) = [] := by
  refine List.filter_eq_nil_iff.mpr fun e he => ?_
  obtain ⟨uplink, -, he⟩ := List.mem_flatMap.mp he
  unfold reports at he
  split at he
  · cases he
  · obtain rfl := List.mem_singleton.mp he
    exact Bool.false_ne_true

theorem complaints_reports (uplinks : List Uplink) :
    complaints (uplinks.flatMap (reports L)) + (uplinks.filterMap (decoded L)).length =
      uplinks.length := by
  have hall : complaints (uplinks.flatMap (reports L)) = (uplinks.flatMap (reports L)).length := by
    refine List.countP_eq_length.mpr fun e he => ?_
    obtain ⟨uplink, -, he⟩ := List.mem_flatMap.mp he
    unfold reports at he
    split at he
    · cases he
    · obtain rfl := List.mem_singleton.mp he
      rfl
  rw [hall]
  exact (matches_decoded uplinks).length.symm

variable (cfg) in
/-- The way of `main` always returns, with the commands that fit into the queue dispatched. -/
theorem queued_returns (hL : L.Lawful) (uplinks : List Uplink) :
    ∃ es s', (queued cfg L uplinks).Returns {} es ⟨⟩ s' ∧
      heard es = ((uplinks.filterMap (decoded L)).take
        cfg.command_max_queue_depth.toNat).flatMap (shown cfg L) ∧
      complaints es + (uplinks.filterMap (decoded L)).length = uplinks.length := by
  obtain ⟨q, hinject, hq⟩ := injectAll_returns (L := L) uplinks ({} : MainState cfg)
  rw [show ({} : MainState cfg).cmd_queue.m_queue = [] from rfl, List.nil_append] at hq
  have hdecoded : ∀ cmd ∈ q.m_queue, ∃ uplink, decoded L uplink = some cmd := by
    intro cmd hcmd
    rw [hq] at hcmd
    obtain ⟨uplink, -, hdec⟩ := List.mem_filterMap.mp (List.mem_of_mem_take hcmd)
    exact ⟨uplink, hdec⟩
  obtain ⟨es, s', hdrain, hheard, hcomplaints⟩ :=
    drain_shows hL _ { ({} : MainState cfg) with cmd_queue := q } (Nat.lt_succ_self _) hdecoded
  refine ⟨_, s', hinject.bind hdrain, ?_, ?_⟩
  · rw [heard_append, heard_reports, List.nil_append, hheard, commands_mainQueue, ← hq]
  · rw [complaints_append, hcomplaints, Nat.add_zero, complaints_reports]

/-! ## The result -/

/-- The calls of some commands tell how many there are. -/
theorem invocations_shown (hL : L.Lawful) {cmds : List Command}
    (h : ∀ cmd ∈ cmds, ∃ uplink, decoded L uplink = some cmd) :
    Event.invocations (cmds.flatMap (shown cfg L)) =
      cmds.map fun cmd => (cmd.opcode.toByte, cmd) := by
  induction cmds with
  | nil => rfl
  | cons cmd cmds ih =>
    obtain ⟨uplink, hdec⟩ := h cmd List.mem_cons_self
    rw [List.flatMap_cons, List.map_cons, Event.invocations, List.filterMap_append]
    exact congrArg₂ (· ++ ·) (shows_of_decoded cfg hL hdec).invocations
      (ih fun cmd' hcmd' => h cmd' (List.mem_cons_of_mem _ hcmd'))

/-- The two paths agree exactly when nothing makes `dispatchRaw` throw, and every command fits
into the queue. -/
theorem agree_iff (hL : L.Lawful) (uplinks : List Uplink) : Agree cfg L uplinks ↔
    (∀ uplink ∈ uplinks, UplinkConverts L uplink.json) ∧
      (uplinks.filterMap (decoded L)).length ≤ cfg.command_max_queue_depth.toNat := by
  obtain ⟨es, s', hqueued, hheard, hcomplaints⟩ := queued_returns cfg hL uplinks
  have hdecoded : ∀ cmd ∈ uplinks.filterMap (decoded L),
      ∃ uplink, decoded L uplink = some cmd := by
    intro cmd hcmd
    obtain ⟨uplink, -, hdec⟩ := List.mem_filterMap.mp hcmd
    exact ⟨uplink, hdec⟩
  unfold Prog.Returns at hqueued
  constructor
  · intro h
    have hconverts := converts_of_direct hL uplinks {} h.direct_returns
    obtain ⟨es', hdirect, hheard', -⟩ := direct_returns cfg L hL uplinks hconverts
    have hsame := h.heard
    rw [hqueued, hdirect {}] at hsame
    simp only [hheard, hheard'] at hsame
    have hlen := congrArg (List.length ∘ Event.invocations) hsame
    rw [Function.comp_apply, Function.comp_apply, invocations_shown hL hdecoded,
      invocations_shown hL fun cmd hcmd => hdecoded cmd (List.mem_of_mem_take hcmd),
      List.length_map, List.length_map, List.length_take] at hlen
    exact ⟨hconverts, by omega⟩
  · rintro ⟨hconverts, hfit⟩
    obtain ⟨es', hdirect, hheard', hcomplaints'⟩ := direct_returns cfg L hL uplinks hconverts
    have hrun := hdirect {}
    unfold Prog.Returns at hrun
    rw [List.take_of_length_le hfit] at hheard
    constructor
    · rw [hrun]
    · rw [hqueued]
    · rw [hrun, hqueued, hheard', hheard]
    · rw [hrun, hqueued]
      exact Nat.add_right_cancel (hcomplaints'.trans hcomplaints.symm)

end Paths

/-- The default queue has room for 32 commands, and the paths part at the 33rd. -/
theorem agree_noops : Agree {} noopLibrary (List.replicate 32 ⟨noopText, 0⟩) ∧
    ¬Agree {} noopLibrary (List.replicate 33 ⟨noopText, 0⟩) := by
  have hlen : ∀ n, ((List.replicate n (⟨noopText, 0⟩ : Uplink)).filterMap
      (decoded noopLibrary)).length = n := by
    intro n
    rw [List.filterMap_replicate_of_some decoded_noop, List.length_replicate]
  have hconverts : UplinkConverts noopLibrary noopText := by
    refine (fromJson_documented_iff noopLibrary 0 noopText).mp fun e he => ?_
    rw [show fromJson noopLibrary 0 noopText = .ok _ from fromJson_of_decoded decoded_noop] at he
    cases he
  constructor
  · refine (agree_iff noopLibrary_lawful _).mpr ⟨fun uplink h => ?_, ?_⟩
    · obtain rfl := List.eq_of_mem_replicate h
      exact hconverts
    · rw [hlen]
      decide
  · intro h
    have hfit := ((agree_iff noopLibrary_lawful _).mp h).2
    rw [hlen] at hfit
    exact absurd hfit (by decide)

end Main

end Obcsw
