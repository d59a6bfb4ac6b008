import Obcsw.MainLoop

/-!
# Health flags

The three flags of a downlinked frame as a function of the frames generated so far :
`fault_active` looks at the frame itself, `safe_mode` at any frame up to it, and
`last_fault_code` at the last event fired up to it. `main` keeps them in three variables
that the fault callback writes; `Tracks` says what the variables hold between two
iterations, and `healthy` what every frame handed to the dispatcher carries.
-/

set_option linter.unusedSectionVars false

open Exceptions Program

namespace Obcsw

namespace Main

open FaultDetector (faults Violates Overloads)

section Health

variable (cfg : SatelliteConfig)

/-! ## The flags as a function of the history -/

/-- Whether the event puts the computer into safe mode. -/
def overloads (evt : FaultEvent) : Bool :=
  decide (evt.code = .CPU_OVERLOAD ∨ evt.code = .MEMORY_OVERLOAD)

/-- The events fired over a history of frames. -/
def history (gs : List TelemetryFrame) : List FaultEvent :=
  gs.flatMap (faults cfg)

/-- The code of the last event; `code` if there was none. -/
def lastCode (code : UInt32) (evts : List FaultEvent) : UInt32 :=
  (evts.map fun evt => evt.code.toUInt32).getLastD code

/-- The frame `g` with the flags due after the frames `hist` and itself. -/
def flagged (hist : List TelemetryFrame) (g : TelemetryFrame) : TelemetryFrame :=
  { g with
    fault_active := !(faults cfg g).isEmpty
    safe_mode := (history cfg (hist ++ [g])).any overloads
    last_fault_code := lastCode 0 (history cfg (hist ++ [g])) }

/-- The frame a tick generates, without flags. -/
def measured (frame_id : UInt64) (tick : Tick) : TelemetryFrame :=
  generateFrame (tick.measure frame_id) frame_id cfg.satellite_name

/-- The frames a run generates from a frame id on, without flags. -/
def measuredFrom : UInt64 → List Tick → List TelemetryFrame
  | _, [] => []
  | frame_id, tick :: ticks => measured cfg frame_id tick :: measuredFrom (frame_id + 1) ticks

/-! ## The fault callback -/

variable {cfg}

/-- The variables after the callback. -/
def noted (s : MainState cfg) (evt : FaultEvent) : MainState cfg :=
  { s with
    fault_active := true
    fault_code := evt.code.toUInt32
    safe_mode := s.safe_mode || overloads evt }

/-- What the callback prints. -/
def reported (evt : FaultEvent) : List Event :=
  .cerr (bytes ("[FAULT] " ++ evt.message ++ " (measured=" ++ evt.measured_value.toFixed 2
    ++ ", threshold=" ++ evt.threshold_value.toFixed 2 ++ ")\n")) ::
  if overloads evt then [.cerr (bytes "[FAULT] Entering safe mode.\n")] else []

theorem faultCallback_returns (evt : FaultEvent) (s : MainState cfg) :
    (faultCallback evt).Returns s (reported evt) ⟨⟩ (noted s evt) := by
  unfold faultCallback noted reported overloads
  by_cases h : evt.code = .CPU_OVERLOAD ∨ evt.code = .MEMORY_OVERLOAD
  · simp [Prog.Returns, h]
  · simp [Prog.Returns, h]

theorem frames_of_reported (evts : List FaultEvent) :
    Event.enqueued (evts.flatMap reported) = [] ∧
      Event.dispatched (evts.flatMap reported) = [] := by
  induction evts with
  | nil => exact ⟨rfl, rfl⟩
  | cons evt evts ih =>
    have hevt : Event.enqueued (reported evt) = [] ∧ Event.dispatched (reported evt) = [] := by
      unfold reported
      cases overloads evt <;> exact ⟨rfl, rfl⟩
    rw [List.flatMap_cons, Event.enqueued_append, Event.dispatched_append, ih.1, ih.2, hevt.1,
      hevt.2]
    exact ⟨rfl, rfl⟩

theorem lastCode_cons (code : UInt32) (evt : FaultEvent) (evts : List FaultEvent) :
    lastCode code (evt :: evts) = lastCode evt.code.toUInt32 evts :=
  List.getLastD_cons ..

theorem foldl_noted (evts : List FaultEvent) (s : MainState cfg) : evts.foldl noted s =
    { s with
      fault_active := s.fault_active || !evts.isEmpty
      fault_code := lastCode s.fault_code evts
      safe_mode := s.safe_mode || evts.any overloads } := by
  induction evts generalizing s with
  | nil => simp [lastCode]
  | cons evt evts ih =>
    rw [List.foldl_cons, ih, lastCode_cons]
    simp [noted, Bool.or_assoc]

theorem lastCode_append (code : UInt32) (evts evts' : List FaultEvent) :
    lastCode code (evts ++ evts') = lastCode (lastCode code evts) evts' := by
  induction evts generalizing code with
  | nil => rfl
  | cons evt evts ih => rw [List.cons_append, lastCode_cons, lastCode_cons, ih]

/-! ## One iteration -/

/-- What the variables hold between two iterations, after the frames `hist`. -/
structure Tracks (s : MainState cfg) (hist : List TelemetryFrame) : Prop where
  safe_mode : s.safe_mode = (history cfg hist).any overloads
  fault_code : s.fault_code = lastCode 0 (history cfg hist)

/-- The thresholds do not look at the flags. -/
theorem faults_generateFrame (m : Measurements) (frame_id : UInt64) (satellite_id : Bytes)
    (fault_active safe_mode : Bool) (last_fault_code : UInt32) :
    faults cfg (generateFrame m frame_id satellite_id fault_active safe_mode last_fault_code) =
      faults cfg (generateFrame m frame_id satellite_id) :=
  rfl

/-- The variables after the frame `g` has been evaluated. -/
def evaluated (s : MainState cfg) (g : TelemetryFrame) : MainState cfg :=
  { s with
    frame_id := s.frame_id + 1
    fault_active := !(faults cfg g).isEmpty
    fault_code := lastCode s.fault_code (faults cfg g)
    safe_mode := s.safe_mode || (faults cfg g).any overloads }

theorem Tracks.evaluated {s : MainState cfg} {hist : List TelemetryFrame} (h : Tracks s hist)
    (g : TelemetryFrame) : Tracks (evaluated s g) (hist ++ [g]) := by
  constructor
  · simp [Main.evaluated, history, h.safe_mode]
  · simp [Main.evaluated, history, h.fault_code, lastCode_append]

/-- The frame with the flags the variables hold. -/
def stamped (s : MainState cfg) (g : TelemetryFrame) : TelemetryFrame :=
  { g with
    fault_active := s.fault_active
    safe_mode := s.safe_mode
    last_fault_code := s.fault_code }

/-- The flags due are the ones the variables hold after the evaluation. -/
theorem flagged_eq {s : MainState cfg} {hist : List TelemetryFrame} (h : Tracks s hist)
    (g : TelemetryFrame) : flagged cfg hist g = stamped (evaluated s g) g := by
  have htracks := h.evaluated g
  rw [flagged, stamped, htracks.safe_mode, htracks.fault_code]
  rfl

/-- The first part of an iteration always returns its frame. -/
theorem prepare_returns (s : MainState cfg) (measure : UInt64 → Measurements) :
    ∃ es, (prepare cfg measure).Returns s es
      (stamped (evaluated s (generateFrame (measure s.frame_id) s.frame_id cfg.satellite_name))
        (generateFrame (measure s.frame_id) s.frame_id cfg.satellite_name))
      (evaluated s (generateFrame (measure s.frame_id) s.frame_id cfg.satellite_name)) ∧
      Event.enqueued es = [stamped
        (evaluated s (generateFrame (measure s.frame_id) s.frame_id cfg.satellite_name))
        (generateFrame (measure s.frame_id) s.frame_id cfg.satellite_name)] ∧
      Event.dispatched es = [] := by
  generalize hg : generateFrame (measure s.frame_id) s.frame_id cfg.satellite_name = g
  have heval : (FaultDetector.evaluate ⟨cfg, some faultCallback⟩
      (generateFrame (measure s.frame_id) s.frame_id cfg.satellite_name s.fault_active
        s.safe_mode s.fault_code)).run
        { s with frame_id := s.frame_id + 1, fault_active := false } =
      ⟨(faults cfg g).flatMap reported, evaluated s g, .ok ⟨⟩⟩ := by
    rw [FaultDetector.evaluate_eq, faults_generateFrame, hg]
    have hloop := Prog.Returns.forM faultCallback_returns (faults cfg g)
      { s with frame_id := s.frame_id + 1, fault_active := false }
    rw [foldl_noted] at hloop
    exact hloop
  refine ⟨(faults cfg g).flatMap reported ++
    [.cout (snapshot (stamped (evaluated s g) g)), .enqueue (stamped (evaluated s g) g)], ?_, ?_,
    ?_⟩
  · subst hg
    unfold Prog.Returns prepare
    simp only [bind_run, getState_run, update_run, Outcome.andThen_ok, Outcome.after_nil, heval]
    rfl
  · rw [Event.enqueued_append, (frames_of_reported (faults cfg g)).1]
    rfl
  · rw [Event.dispatched_append, (frames_of_reported (faults cfg g)).2]
    rfl

theorem prepare_not_throws {s s' : MainState cfg} {measure : UInt64 → Measurements}
    {es : List Event} {e : CppException} : ¬(prepare cfg measure).Throws s es e s' := by
  obtain ⟨es', hret, -⟩ := prepare_returns s measure
  exact hret.not_throws

/-- The report of a refused frame changes nothing. -/
theorem reportDrop_returns {σ : Type} (enqueued : Bool) (w : σ) :
    ∃ es, (reportDrop enqueued).Returns w es ⟨⟩ w ∧ Event.enqueued es = [] ∧
      Event.dispatched es = [] := by
  cases enqueued with
  | false => exact ⟨_, rfl, rfl, rfl⟩
  | true => exact ⟨_, rfl, rfl, rfl⟩

/-- An iteration enqueues the generated frame with the flags it is due. -/
theorem observe_returns {s : MainState cfg} {hist : List TelemetryFrame} (h : Tracks s hist)
    (tick : Tick) : ∃ es, (observe cfg tick).Returns s es ⟨⟩
      (evaluated s (measured cfg s.frame_id tick)) ∧
        Event.enqueued es = [flagged cfg hist (measured cfg s.frame_id tick)] ∧
        Event.dispatched es = [] := by
  obtain ⟨es, hprepare, hq, hd⟩ := prepare_returns s tick.measure
  obtain ⟨es', hreport, hq', hd'⟩ := reportDrop_returns tick.enqueued
    (evaluated s (measured cfg s.frame_id tick))
  refine ⟨es ++ es', hprepare.bind hreport, ?_, ?_⟩
  · rw [Event.enqueued_append, hq, hq', List.append_nil, flagged_eq h]
    rfl
  · rw [Event.dispatched_append, hd, hd', List.append_nil]

/-! ## A run of the loop -/

section Run

variable {H : CommandHandler (MainState cfg)} (hH : ∀ cmd, Harmless (H.dispatch cmd))

include hH

/-- An iteration that returns or throws has enqueued its frame, and moved on by one frame. -/
theorem iteration_run {s : MainState cfg} {hist : List TelemetryFrame} (h : Tracks s hist)
    (tick : Tick) : ((iteration cfg H tick).run s).state.frame_id = s.frame_id + 1 ∧
      Tracks ((iteration cfg H tick).run s).state (hist ++ [measured cfg s.frame_id tick]) ∧
      Event.enqueued ((iteration cfg H tick).run s).events =
        [flagged cfg hist (measured cfg s.frame_id tick)] := by
  obtain ⟨es, hobserve, hq, -⟩ := observe_returns h tick
  have htracks := h.evaluated (measured cfg s.frame_id tick)
  obtain ⟨⟨q, hs⟩, hq'⟩ := drainQueue_run hH (evaluated s (measured cfg s.frame_id tick))
  unfold Prog.Returns at hobserve
  rw [iteration, bind_run, hobserve, Outcome.andThen_ok, Outcome.after]
  simp only [hs, Event.enqueued_append, hq, hq', List.append_nil]
  exact ⟨rfl, ⟨htracks.safe_mode, htracks.fault_code⟩, trivial⟩

/-- The `n`-th frame a run enqueues. -/
theorem loop_enqueued : ∀ (ticks : List Tick) {s : MainState cfg} {hist : List TelemetryFrame},
    Tracks s hist → ∀ {n : ℕ} {f : TelemetryFrame},
    (Event.enqueued ((loop cfg H ticks).run s).events)[n]? = some f →
    ∃ g, (measuredFrom cfg s.frame_id ticks)[n]? = some g ∧
      f = flagged cfg (hist ++ (measuredFrom cfg s.frame_id ticks).take n) g
  | [], s, hist, h, n, f, hf => by
    cases hf
  | tick :: ticks, s, hist, h, n, f, hf => by
    obtain ⟨hid, htracks, hq⟩ := iteration_run hH h tick
    rw [loop_cons, bind_run] at hf
    rcases hrun : (iteration cfg H tick).run s with ⟨es, s', r⟩
    rw [hrun] at hid htracks hq hf
    simp only at hid htracks hq
    cases r with
    | error e =>
      rw [Outcome.andThen_error, hq] at hf
      cases n with
      | zero =>
        obtain rfl := Option.some.inj hf
        exact ⟨_, rfl, by rw [List.take_zero, List.append_nil]⟩
      | succ n => cases hf
    | ok _ =>
      rw [Outcome.andThen_ok, Outcome.after, Event.enqueued_append, hq, List.singleton_append] at hf
      cases n with
      | zero =>
        obtain rfl := Option.some.inj hf
        exact ⟨_, rfl, by rw [List.take_zero, List.append_nil]⟩
      | succ n =>
        obtain ⟨g, hg, rfl⟩ := loop_enqueued ticks htracks hf
        rw [hid] at hg
        refine ⟨g, hg, ?_⟩
        rw [hid, measuredFrom, List.take_succ_cons, List.append_assoc, List.singleton_append]

/-- The variables a run ends with track the frames it has generated. -/
theorem loop_tracks : ∀ (ticks : List Tick) {s : MainState cfg} {hist : List TelemetryFrame},
    Tracks s hist → ∃ n, Tracks ((loop cfg H ticks).run s).state
      (hist ++ (measuredFrom cfg s.frame_id ticks).take n)
  | [], s, hist, h => by
    refine ⟨0, ?_⟩
    rw [List.take_zero, List.append_nil]
    exact h
  | tick :: ticks, s, hist, h => by
    obtain ⟨hid, htracks, -⟩ := iteration_run hH h tick
    rw [loop_cons, bind_run]
    rcases hrun : (iteration cfg H tick).run s with ⟨es, s', r⟩
    rw [hrun] at hid htracks
    simp only at hid htracks
    cases r with
    | error e => exact ⟨1, htracks⟩
    | ok _ =>
      obtain ⟨n, hn⟩ := loop_tracks ticks htracks
      refine ⟨n + 1, ?_⟩
      rw [measuredFrom, List.take_succ_cons, ← List.singleton_append, ← List.append_assoc, ← hid]
      exact hn

end Run

/-! ## The result -/

variable (cfg) in
/-- The frame `f`, the `n`-th one handed to the dispatcher, after the generated frames `gs`. -/
structure Healthy (gs : List TelemetryFrame) (n : ℕ) (f : TelemetryFrame) : Prop where
  /-- It is the `n`-th generated frame but for the flags, and `fault_active` looks at it only. -/
  generated : ∃ g, gs[n]? = some g ∧ g.frame_id = UInt64.ofNat n ∧
    f = { g with
      fault_active := f.fault_active
      safe_mode := f.safe_mode
      last_fault_code := f.last_fault_code } ∧
    (f.fault_active = true ↔ Violates cfg g)
  /-- Safe mode is on from the first overload on. -/
  safe_mode : f.safe_mode = true ↔ ∃ m ≤ n, ∃ g, gs[m]? = some g ∧ Overloads cfg g
  /-- The code is that of the last event fired so far. -/
  last_fault_code : f.last_fault_code = lastCode 0 (history cfg (gs.take (n + 1)))
  code_of_fault_active : f.fault_active = true → f.last_fault_code ≠ 0
  code_of_safe_mode : f.safe_mode = true → f.last_fault_code ≠ 0

theorem lastCode_ne_zero {evts : List FaultEvent} (hne : evts ≠ [])
    (h : ∀ evt ∈ evts, evt.code.toUInt32 ≠ 0) : lastCode 0 evts ≠ 0 := by
  have hmap : evts.map (fun evt => evt.code.toUInt32) ≠ [] := by simpa using hne
  rw [lastCode, List.getLastD_eq_getLast?, List.getLast?_eq_getLast_of_ne_nil hmap]
  obtain ⟨evt, hevt, heq⟩ := List.mem_map.mp (List.getLast_mem hmap)
  rw [Option.getD_some, ← heq]
  exact h evt hevt

theorem history_ne_zero {gs : List TelemetryFrame} (hne : history cfg gs ≠ []) :
    lastCode 0 (history cfg gs) ≠ 0 := by
  refine lastCode_ne_zero hne fun evt hevt => ?_
  obtain ⟨g, -, hg⟩ := List.mem_flatMap.mp hevt
  exact FaultDetector.toUInt32_ne_zero_of_mem cfg g hg

theorem any_overloads_iff (gs : List TelemetryFrame) :
    (history cfg gs).any overloads = true ↔ ∃ g ∈ gs, Overloads cfg g := by
  simp only [List.any_eq_true, history, List.mem_flatMap, overloads, decide_eq_true_iff]
  constructor
  · rintro ⟨evt, ⟨g, hg, hevt⟩, hcode⟩
    exact ⟨g, hg, (FaultDetector.exists_overload_iff cfg g).mp ⟨evt, hevt, hcode⟩⟩
  · rintro ⟨g, hg, hover⟩
    obtain ⟨evt, hevt, hcode⟩ := (FaultDetector.exists_overload_iff cfg g).mpr hover
    exact ⟨evt, ⟨g, hg, hevt⟩, hcode⟩

/-- The `n`-th frame of a run is the one its tick generates. -/
theorem measuredFrom_getElem? : ∀ (ticks : List Tick) (frame_id : UInt64) (n : ℕ),
    (measuredFrom cfg frame_id ticks)[n]? =
      ticks[n]?.map (measured cfg (frame_id + UInt64.ofNat n))
  | [], _, _ => rfl
  | tick :: ticks, frame_id, 0 => by
    rw [measuredFrom, List.getElem?_cons_zero, List.getElem?_cons_zero, Option.map_some]
    simp
  | tick :: ticks, frame_id, n + 1 => by
    rw [measuredFrom, List.getElem?_cons_succ, List.getElem?_cons_succ,
      measuredFrom_getElem? ticks, UInt64.ofNat_add, UInt64.add_assoc, UInt64.add_comm 1]
    rfl

theorem frame_id_of_measuredFrom {ticks : List Tick} {frame_id : UInt64} {n : ℕ}
    {g : TelemetryFrame} (h : (measuredFrom cfg frame_id ticks)[n]? = some g) :
    g.frame_id = frame_id + UInt64.ofNat n := by
  rw [measuredFrom_getElem?] at h
  obtain ⟨tick, -, rfl⟩ := Option.map_eq_some_iff.mp h
  rfl

theorem mem_take_succ_iff {α : Type} {l : List α} {n : ℕ} {a : α} :
    a ∈ l.take (n + 1) ↔ ∃ m ≤ n, l[m]? = some a := by
  rw [List.mem_iff_getElem?]
  refine exists_congr fun m => ?_
  rw [List.getElem?_take, ← Nat.lt_add_one_iff]
  by_cases hm : m < n + 1
  · rw [if_pos hm, and_iff_right hm]
  · rw [if_neg hm]
    exact iff_of_false nofun fun h => hm h.1

/-- The frame with the flags it is due is healthy. -/
theorem healthy_flagged {gs : List TelemetryFrame} {n : ℕ} {g : TelemetryFrame}
    (hg : gs[n]? = some g) (hid : g.frame_id = UInt64.ofNat n) :
    Healthy cfg gs n (flagged cfg (gs.take n) g) := by
  have htake : gs.take n ++ [g] = gs.take (n + 1) := by
    rw [List.take_add_one, hg]
    rfl
  have hactive : (flagged cfg (gs.take n) g).fault_active = true ↔ faults cfg g ≠ [] := by
    simp [flagged]
  have hcode : (flagged cfg (gs.take n) g).last_fault_code =
      lastCode 0 (history cfg (gs.take (n + 1))) := by
    rw [← htake]
    rfl
  have hsafe : (flagged cfg (gs.take n) g).safe_mode = true ↔
      ∃ g ∈ gs.take (n + 1), Overloads cfg g := by
    rw [← any_overloads_iff, ← htake]
    rfl
  constructor
  · exact ⟨g, hg, hid, rfl, hactive.trans (FaultDetector.faults_ne_nil_iff cfg g)⟩
  · rw [hsafe]
    constructor
    · rintro ⟨g', hmem, hover⟩
      obtain ⟨m, hm, hg'⟩ := mem_take_succ_iff.mp hmem
      exact ⟨m, hm, g', hg', hover⟩
    · rintro ⟨m, hm, g', hg', hover⟩
      exact ⟨g', mem_take_succ_iff.mpr ⟨m, hm, hg'⟩, hover⟩
  · exact hcode
  · intro h
    rw [hcode]
    refine history_ne_zero fun hnil => hactive.mp h ?_
    rw [← htake, history, List.flatMap_append, List.append_eq_nil_iff] at hnil
    simpa using hnil.2
  · intro h
    rw [hcode]
    refine history_ne_zero fun hnil => ?_
    have hany := (any_overloads_iff (gs.take (n + 1))).mpr (hsafe.mp h)
    rw [hnil] at hany
    cases hany

/-- The variables track the empty history when the loop starts. -/
theorem tracks_start (cmd_queue : CommandQueue cfg.command_max_queue_depth) :
    Tracks ({ cmd_queue := cmd_queue } : MainState cfg) [] :=
  ⟨rfl, rfl⟩

/-- With handlers that only print, the frames of a run are healthy. -/
theorem enqueued_healthy {H : CommandHandler (MainState cfg)}
    (hH : ∀ cmd, Harmless (H.dispatch cmd)) (ticks : List Tick)
    (cmd_queue : CommandQueue cfg.command_max_queue_depth) {n : ℕ} {f : TelemetryFrame}
    (h : (Event.enqueued ((loop cfg H ticks).run { cmd_queue := cmd_queue }).events)[n]? = some f) :
    Healthy cfg (measuredFrom cfg 0 ticks) n f := by
  obtain ⟨g, hg, rfl⟩ := loop_enqueued hH ticks (tracks_start cmd_queue) h
  have hid := frame_id_of_measuredFrom hg
  rw [UInt64.zero_add] at hid
  exact healthy_flagged hg hid

/-- Every frame a run of the loop hands to the dispatcher is healthy. -/
theorem healthy (L : JsonLibrary) (ticks : List Tick)
    (cmd_queue : CommandQueue cfg.command_max_queue_depth) {n : ℕ} {f : TelemetryFrame}
    (h : (Event.enqueued ((loop cfg (registerCommandHandlers L {}) ticks).run
      { cmd_queue := cmd_queue }).events)[n]? = some f) :
    Healthy cfg (measuredFrom cfg 0 ticks) n f :=
  enqueued_healthy (harmless_registered L) ticks cmd_queue h

end Health

/-- Two iterations of the program; the battery is low in the second. -/
def twoTicks : List Tick :=
  [.simulated { battery_voltage_v := 7.4, obc_temp_c := 25.0 } true,
    .simulated { battery_voltage_v := 6.0, obc_temp_c := 25.0 } true]

/-- The second frame, under the default thresholds. -/
def secondFrame : TelemetryFrame :=
  { measured {} 1 (.simulated { battery_voltage_v := 6.0, obc_temp_c := 25.0 } true) with
    fault_active := true
    last_fault_code := 1 }

theorem healthy_secondFrame : Healthy {} (measuredFrom {} 0 twoTicks) 1 secondFrame :=
  healthy (.ofText [] .null) twoTicks (.init _) (by decide +kernel)

end Main

end Obcsw
