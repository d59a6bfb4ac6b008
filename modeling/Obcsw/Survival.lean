import Obcsw.Delivery

/-!
# Survival

What can end the process before its time. `main` throws when `start` fails, and never
otherwise : the commands in its queue have been decoded, so the handlers return on them, and
the first iteration dispatches them (`commanded`). A dispatch loop throws when a frame does not
serialize. Every frame carries the name of the satellite, so a process can be terminated by its
loop exactly when the configured name is not valid UTF-8, and the frame queue takes a frame at
all (`terminates_iff`).
-/

set_option linter.unusedSectionVars false

open Exceptions Program

namespace Obcsw

namespace Process

open Main
open Downlink (Effect)
open TelemetrySerializer (toJson)
open Transitions (exec)

section Survival

variable {cfg : SatelliteConfig} {L : JsonLibrary} {uplinks : List Uplink} {s : State cfg}

/-- Every frame due carries the name of the satellite. -/
theorem satellite_id_of_due {ticks : List Tick} {f : TelemetryFrame} (h : f ∈ due cfg ticks) :
    f.satellite_id = cfg.satellite_name := by
  obtain ⟨n, hn⟩ := List.mem_iff_getElem?.mp h
  obtain ⟨g, hg, rfl, -⟩ := due_getElem? hn
  rw [measuredFrom_getElem?] at hg
  obtain ⟨tick, -, rfl⟩ := Option.map_eq_some_iff.mp hg
  rfl

/-- A loop can end the process only with a name that is not valid UTF-8. -/
theorem of_terminated (hL : L.Lawful) (h : (system cfg L uplinks).Reachable s)
    (hterm : s.downlink.terminated = true) : validUtf8 cfg.satellite_name = false ∧
      0 < cfg.telemetry_max_frame_queue_depth.toNat := by
  revert hterm
  refine h.induct (I := fun s => s.downlink.terminated = true → _) (fun s hs => ?_)
    fun s l s' hr hs hstep hterm => ?_
  · obtain rfl : s = {} := hs
    exact nofun
  · have hdown := downlink_reachable hr
    rcases downlink_of_step (step_of_next hstep).2.2 with hsame | ⟨k, hk⟩
    · rw [hsame] at hterm
      exact hs hterm
    · obtain ⟨hterm', hstep'⟩ := Downlink.step_of_next hk
      obtain ⟨i, frame, hloop, herr⟩ :=
        Downlink.serializing_of_terminated hdown hterm' hstep' hterm
      have hmem := Downlink.accepted_of_serializing hdown hloop
      have hdue := (accepted_sublist (books_reachable hr)).subset hmem
      rw [← satellite_id_of_due hdue]
      refine ⟨(TelemetrySerializer.toJson_error_iff hL frame).mp herr, ?_⟩
      by_contra hzero
      rw [Downlink.accepted_of_zero hdown (Nat.eq_zero_of_not_pos hzero)] at hmem
      cases hmem

/-! ## A process in its loop -/

/-- The dispatcher after `start`, with the descriptor 3. -/
def manned : Downlink.State Unit where
  dispatcher := { m_running := true, m_sock_fd := 3 }
  m_thread := some 0
  spawned := 1
  loops := Function.update (fun _ => .exited) 0 .check
  log := [.opened 3, .startReturned]

/-- The point before the injections. -/
def built (cfg : SatelliteConfig) : State cfg where
  downlink := manned
  pc := .injecting
  events := [.cout (banner cfg)]

theorem built_reachable : (system cfg L uplinks).Reachable (built cfg) :=
  Transitions.reachable_of_exec [.main, .downlink .control, .downlink (.socket 3),
    .downlink .control, .downlink (.spawn true)] rfl

/-- The loop is in reach. -/
theorem looping_reachable (cfg : SatelliteConfig) (L : JsonLibrary) (uplinks : List Uplink) :
    ∃ s, (system cfg L uplinks).Reachable s ∧ s.pc = .looping ∧ s.g_running = true ∧
      s.ticks = [] ∧ s.downlink = manned := by
  obtain ⟨es, q, hinject, -⟩ := inject_returns L uplinks (built cfg).vars
  refine ⟨(built cfg).ran es { (built cfg).vars with cmd_queue := q } .looping,
    built_reachable.step (i := .main) ?_, rfl, rfl, rfl, rfl⟩
  have hmain : mainStep L uplinks (built cfg) =
      some ((built cfg).ran es { (built cfg).vars with cmd_queue := q } .looping) := by
    rw [mainStep]
    rw [Prog.Returns] at hinject
    simp only [hinject]
    rfl
  exact hmain

/-- The dispatcher goes on and answers nothing, and `main` stays where it is. -/
theorem next_still {k : Downlink.Label Unit} {d : Downlink.State Unit} {es : List Effect}
    (hend : s.pc.ended = false) (hk : k.isCall = false)
    (h : Downlink.next L (dispatcherConfig cfg) s.downlink k = some d)
    (hlog : d.log = s.downlink.log ++ es) (hes : ∀ e ∈ es, answers e = false) :
    next L uplinks s (.downlink k) = some { s with downlink := d } := by
  have hterm := (Downlink.step_of_next h).1
  have hresume : ({ s with downlink := d } : State cfg).resume
      (d.log.drop s.downlink.log.length) = { s with downlink := d } := by
    rw [hlog, List.drop_left]
    exact resume_of_still _ hes
  simp only [next, hterm, hend, downlinkStep, hk, downlinkNext, h, Option.map_some, hresume,
    Bool.or_self, Bool.false_eq_true, if_false]

/-- A dispatch loop goes on, and `main` stays where it is. -/
theorem next_loop {i : ℕ} {d : Downlink.State Unit} (hend : s.pc.ended = false)
    (h : Downlink.next L (dispatcherConfig cfg) s.downlink (.loop i) = some d) :
    next L uplinks s (.downlink (.loop i)) = some { s with downlink := d } := by
  have hstill : ∃ es, d.log = s.downlink.log ++ es ∧ ∀ e ∈ es, answers e = false := by
    cases (Downlink.step_of_next h).2 with
    | pop i frame | count i frame sent => exact ⟨_, rfl, by simp [answers]⟩
    | check | sleep | drained | serialize | serializeThrows =>
      exact ⟨[], (List.append_nil _).symm, by simp⟩
  obtain ⟨es, hlog, hes⟩ := hstill
  exact next_still hend rfl h hlog hes

/-- The loops run on while `main` stays where it is. -/
theorem run_loops (hend : s.pc.ended = false) {is : List ℕ} {d : Downlink.State Unit}
    (h : exec (Downlink.next L (dispatcherConfig cfg)) s.downlink (is.map .loop) = some d) :
    ∃ ls, (system cfg L uplinks).Run s ls { s with downlink := d } := by
  induction is generalizing s with
  | nil =>
    obtain rfl := Option.some.inj h
    exact ⟨[], .nil s⟩
  | cons i is ih =>
    rw [List.map_cons, exec, Option.bind_eq_some_iff] at h
    obtain ⟨d₁, hd₁, hrest⟩ := h
    obtain ⟨ls, hls⟩ := @ih { s with downlink := d₁ } hend hrest
    exact ⟨_, .cons (next_loop hend hd₁) hls⟩

/-- The frame of an iteration gets into the hands of the loop. -/
theorem exists_enqueued (cfg : SatelliteConfig) (L : JsonLibrary) (uplinks : List Uplink)
    (hdepth : 0 < cfg.telemetry_max_frame_queue_depth.toNat) :
    ∃ s frame, (system cfg L uplinks).Reachable s ∧ s.pc = .concluding true ∧
      s.ticks = [.simulated {} true] ∧ frame.satellite_id = cfg.satellite_name ∧
      s.downlink = { manned with
        dispatcher := { manned.dispatcher with m_queue := [frame] }
        log := manned.log ++ [.accepted frame] } := by
  obtain ⟨s, hr, hpc, hup, hticks, hdown⟩ := looping_reachable cfg L uplinks
  obtain ⟨es, hprepare, -⟩ := prepare_returns s.vars (Simulation.measure {})
  rw [Prog.Returns] at hprepare
  generalize hv : evaluated s.vars (generateFrame (Simulation.measure {} s.vars.frame_id)
    s.vars.frame_id cfg.satellite_name) = v at hprepare
  generalize hframe : stamped v (generateFrame (Simulation.measure {} s.vars.frame_id)
    s.vars.frame_id cfg.satellite_name) = frame at hprepare
  have hcall : next L uplinks s (.iterate (Simulation.measure {})) =
      some { s.ran es v (.enqueueing (Simulation.measure {})) with
        downlink :=
          { manned with callers := Function.update manned.callers () (some frame) } } := by
    simp [next, hdown, hpc, hup, manned, Pc.ended, iterateStep, hprepare, call, downlinkNext,
      Downlink.next]
  have hanswer : next L uplinks { s.ran es v (.enqueueing (Simulation.measure {})) with
      downlink := { manned with callers := Function.update manned.callers () (some frame) } }
      (.downlink (.enqueue ())) = some (State.answered
        { s.ran es v (.enqueueing (Simulation.measure {})) with
          downlink := { manned with
            dispatcher := { manned.dispatcher with m_queue := [frame] }
            log := manned.log ++ [.accepted frame] } } (Simulation.measure {}) true) := by
    simp [next, State.ran, manned, Pc.ended, downlinkStep, Downlink.Label.isCall, downlinkNext,
      Downlink.next, Downlink.enqueueStep, Dispatcher.enqueue, dispatcherConfig,
      Nat.not_le.mpr hdepth, Downlink.State.record, State.resume]
  refine ⟨_, frame, (hr.step hcall).step hanswer, rfl, ?_, ?_, rfl⟩
  · rw [State.answered, State.ran, hticks]
    rfl
  · rw [← hframe]
    rfl

/-- A name that is not valid UTF-8 can end the process. -/
theorem exists_terminated (hL : L.Lawful) (hname : validUtf8 cfg.satellite_name = false)
    (hdepth : 0 < cfg.telemetry_max_frame_queue_depth.toNat) :
    ∃ s, (system cfg L uplinks).Reachable s ∧ s.downlink.terminated = true := by
  obtain ⟨s, frame, hr, hpc, -, hid, hdown⟩ := exists_enqueued cfg L uplinks hdepth
  obtain ⟨e, herr⟩ := (TelemetrySerializer.toJson_error_iff hL frame).mpr (by rw [hid, hname])
  have hloops : ∃ d, exec (Downlink.next L (dispatcherConfig cfg)) s.downlink
      ([0, 0, 0, 0].map .loop) = some d ∧ d.terminated = true := by
    rw [hdown]
    simp [exec, Downlink.next, Downlink.loopStep, manned, Downlink.State.toLoop,
      Downlink.State.record, herr]
  obtain ⟨d, hd, hterm⟩ := hloops
  obtain ⟨ls, hls⟩ := @run_loops cfg L uplinks s (by rw [hpc]; rfl) _ d hd
  exact ⟨_, hr.run hls, hterm⟩

/-- The process can be ended by its loop exactly when the name of the satellite is not valid
UTF-8, and the frame queue has room. -/
theorem terminates_iff (hL : L.Lawful) :
    (∃ s, (system cfg L uplinks).Reachable s ∧ s.downlink.terminated = true) ↔
      validUtf8 cfg.satellite_name = false ∧ 0 < cfg.telemetry_max_frame_queue_depth.toNat := by
  constructor
  · rintro ⟨s, hr, hterm⟩
    exact of_terminated hL hr hterm
  · rintro ⟨hname, hdepth⟩
    exact exists_terminated hL hname hdepth

/-! ## The commands -/

/-- The commands of the uplink strings that fit into the queue. -/
def uplinked (cfg : SatelliteConfig) (L : JsonLibrary) (uplinks : List Uplink) : List Command :=
  (uplinks.filterMap (decoded L)).take cfg.command_max_queue_depth.toNat

/-- The iterations that have run to their end. -/
def State.concluded (s : State cfg) : ℕ :=
  match s.pc with
  | .concluding _ => s.ticks.length - 1
  | _ => s.ticks.length

/-- The queue holds these commands, and those have been dispatched. -/
def Holds (s : State cfg) (queued dispatched : List Command) : Prop :=
  s.vars.cmd_queue.m_queue = queued ∧ Event.dispatched s.events = dispatched

/-- Once injected, the commands are in the queue until the first iteration ends. -/
def Carries (L : JsonLibrary) (uplinks : List Uplink) (s : State cfg) : Prop :=
  (s.concluded = 0 ∧ Holds s (uplinked cfg L uplinks) []) ∨
    (0 < s.concluded ∧ Holds s [] (uplinked cfg L uplinks))

/-- The commands while `main` stands at its point. -/
def Serves (L : JsonLibrary) (uplinks : List Uplink) (s : State cfg) : Prop :=
  match s.pc with
  | .built | .starting | .injecting => s.ticks = [] ∧ Holds s [] []
  | .threw e => (e = Downlink.socketFailed ∨ e = Downlink.threadFailed) ∧ s.ticks = [] ∧
      Holds s [] []
  | _ => Carries L uplinks s

/-- The handlers return on every command in the queue. -/
theorem Carries.returns (hL : L.Lawful) (hs : Carries L uplinks s) :
    ∀ cmd ∈ s.vars.cmd_queue.m_queue, ∀ w : MainState cfg, ∃ r,
      (((registerCommandHandlers L {}).dispatch cmd).run w).result = .ok r := by
  intro cmd hcmd
  rcases hs with ⟨-, hq, -⟩ | ⟨-, hq, -⟩
  · rw [hq] at hcmd
    obtain ⟨uplink, -, hdec⟩ := List.mem_filterMap.mp (List.mem_of_mem_take hcmd)
    exact dispatch_decoded_returns hL hdec
  · rw [hq] at hcmd
    cases hcmd

/-- The second part of an iteration empties the queue. -/
theorem conclude_dispatched {v : MainState cfg} (hv : ∀ cmd ∈ v.cmd_queue.m_queue,
      ∀ w : MainState cfg, ∃ r,
        (((registerCommandHandlers L {}).dispatch cmd).run w).result = .ok r)
    (enqueued : Bool) {o : Outcome (MainState cfg) Event CppException PUnit}
    (ho : (conclude (registerCommandHandlers L {}) enqueued).run v = o) :
    o.result = .ok ⟨⟩ ∧ o.state.cmd_queue.m_queue = [] ∧
      Event.dispatched o.events = v.cmd_queue.m_queue := by
  subst ho
  have hdrain := drainQueue_returns (harmless_registered L) hv
  cases enqueued <;> exact hdrain

/-- `main` moves on in the same iteration, and says nothing of commands. -/
theorem Carries.move {s' : State cfg} {es : List Event} (hs : Carries L uplinks s)
    (hconcluded : s'.concluded = s.concluded)
    (hq : s'.vars.cmd_queue.m_queue = s.vars.cmd_queue.m_queue)
    (hevents : s'.events = s.events ++ es) (hes : Event.dispatched es = []) :
    Carries L uplinks s' := by
  have hdispatched : Event.dispatched s'.events = Event.dispatched s.events := by
    rw [hevents, Event.dispatched_append, hes, List.append_nil]
  unfold Carries Holds at *
  rw [hconcluded, hq, hdispatched]
  exact hs

theorem Serves.resumes {s' : State cfg} {d : Downlink.State Unit} (hs : Serves L uplinks s)
    (h : Resumes s d s') : Serves L uplinks s' := by
  cases h with
  | still => exact hs
  | started hpc =>
    rw [Serves, hpc] at hs
    exact hs
  | failed hpc hcalls e he =>
    rw [Serves, hpc] at hs
    exact ⟨he, hs⟩
  | answered measure frame enqueued hpc =>
    rw [Serves, hpc] at hs
    refine Carries.move hs ?_ rfl (List.append_nil _).symm rfl
    simp only [State.concluded, State.answered, hpc, List.length_append]
    rfl
  | stopped hpc | destroyed hpc =>
    rw [Serves, hpc] at hs
    refine Carries.move hs ?_ rfl (List.append_nil _).symm rfl
    simp only [State.concluded, hpc]

theorem Serves.step (hL : L.Lawful) {s' : State cfg} {l : Label} (hs : Serves L uplinks s)
    (hr : (system cfg L uplinks).Reachable s) (hend : s.pc.ended = false)
    (h : Step L uplinks s l s') : Serves L uplinks s' := by
  cases h with
  | downlink k d hk hd =>
    exact hs.resumes (resumes_of_step (knows_reachable hr) hend hk (downlink_reachable hr)
      (Downlink.step_of_next hd).2)
  | signal => exact hs
  | start d h hd =>
    rw [Serves, h] at hs
    obtain ⟨hticks, hq, hdispatched⟩ := hs
    exact ⟨hticks, hq, by rw [State.ran, Event.dispatched_append, hdispatched]; rfl⟩
  | inject es vars h hrun =>
    rw [Serves, h] at hs
    obtain ⟨hticks, hq, hdispatched⟩ := hs
    obtain ⟨es', q, hret, hq', -, hes⟩ := inject_returns L uplinks s.vars
    rw [Prog.Returns, hrun] at hret
    obtain ⟨rfl, rfl, -⟩ := Outcome.mk.inj hret
    rw [hq, List.nil_append] at hq'
    refine Or.inl ⟨congrArg List.length hticks, hq', ?_⟩
    rw [State.ran, Event.dispatched_append, hdispatched, hes]
    rfl
  | injectThrows es vars e h hrun => exact absurd hrun inject_not_throws
  | stop d h hdown hd | report d h hd =>
    rw [Serves, h] at hs
    refine Carries.move hs ?_ rfl rfl rfl
    simp only [State.concluded, State.ran, h]
  | conclude enqueued es vars h hrun =>
    have hfollows := follows_reachable hr
    rw [Follows, h] at hfollows
    obtain ⟨ticks, measure, hticks, -⟩ := hfollows
    rw [Serves, h] at hs
    obtain ⟨-, hempty, hes⟩ := conclude_dispatched (hs.returns hL) enqueued hrun
    have hconcluded : s.concluded = ticks.length := by
      simp only [State.concluded, h, hticks, List.length_append, List.length_singleton,
        Nat.add_sub_cancel]
    refine Or.inr ⟨?_, hempty, ?_⟩
    · simp only [State.concluded, State.ran, hticks, List.length_append]
      exact Nat.succ_pos _
    · simp only at hes
      rw [State.ran, Event.dispatched_append, hes]
      rcases hs with ⟨-, hq, hdispatched⟩ | ⟨-, hq, hdispatched⟩
      · rw [hdispatched, hq, List.nil_append]
      · rw [hdispatched, hq, List.append_nil]
  | concludeThrows enqueued es vars e h hrun =>
    rw [Serves, h] at hs
    obtain ⟨hok, -⟩ := conclude_dispatched (hs.returns hL) enqueued hrun
    cases hok
  | iterate measure es vars frame d h hup hrun hd =>
    rw [Serves, h] at hs
    obtain ⟨es', hret, -, hes⟩ := prepare_returns s.vars measure
    rw [Prog.Returns, hrun] at hret
    obtain ⟨rfl, rfl, -⟩ := Outcome.mk.inj hret
    refine Carries.move hs ?_ rfl rfl hes
    simp only [State.concluded, State.ran, h]
  | iterateThrows measure es vars e h hup hrun => exact absurd hrun prepare_not_throws

theorem serves_reachable (hL : L.Lawful) (h : (system cfg L uplinks).Reachable s) :
    Serves L uplinks s := by
  refine h.induct (fun s hs => ?_) fun s l s' hr hs hstep => ?_
  · obtain rfl : s = {} := hs
    exact ⟨rfl, rfl, rfl⟩
  · obtain ⟨-, hend, hstep⟩ := step_of_next hstep
    exact hs.step hL hr hend hstep

/-! ## The result -/

/-- What `main` makes of the uplink strings. -/
structure Commanded (L : JsonLibrary) (uplinks : List Uplink) (s : State cfg) : Prop where
  /-- Only `start` throws, and before the first iteration. -/
  threw : ∀ e, s.pc = .threw e →
    (e = Downlink.socketFailed ∨ e = Downlink.threadFailed) ∧ s.ticks = []
  /-- Nothing is dispatched before the first iteration has enqueued its frame. -/
  before : s.concluded = 0 → Event.dispatched s.events = []
  /-- From its end on, the commands that fit into the queue have been dispatched, each once and
  in order, and the queue is empty. -/
  after : 0 < s.concluded → s.vars.cmd_queue.m_queue = [] ∧
    Event.dispatched s.events = uplinked cfg L uplinks

theorem Carries.dispatched (hs : Carries L uplinks s) :
    (s.concluded = 0 → Event.dispatched s.events = []) ∧
      (0 < s.concluded → Holds s [] (uplinked cfg L uplinks)) := by
  rcases hs with ⟨hzero, -, hdispatched⟩ | ⟨hpos, hholds⟩
  · exact ⟨fun _ => hdispatched, fun hpos => absurd hzero (Nat.ne_of_gt hpos)⟩
  · exact ⟨fun hzero => absurd hzero (Nat.ne_of_gt hpos), fun _ => hholds⟩

/-- Before the first iteration nothing is dispatched. -/
theorem dispatched_of_unticked (hconcluded : s.concluded = s.ticks.length) (hticks : s.ticks = [])
    (hs : Holds s [] []) : (s.concluded = 0 → Event.dispatched s.events = []) ∧
      (0 < s.concluded → Holds s [] (uplinked cfg L uplinks)) := by
  rw [hconcluded, hticks]
  exact ⟨fun _ => hs.2, fun hpos => absurd hpos (Nat.lt_irrefl 0)⟩

theorem Serves.dispatched (hs : Serves L uplinks s) :
    (s.concluded = 0 → Event.dispatched s.events = []) ∧
      (0 < s.concluded → Holds s [] (uplinked cfg L uplinks)) := by
  cases hpc : s.pc with
  | built | starting | injecting =>
    rw [Serves, hpc] at hs
    exact dispatched_of_unticked (by simp only [State.concluded, hpc]) hs.1 hs.2
  | threw e =>
    rw [Serves, hpc] at hs
    exact dispatched_of_unticked (by simp only [State.concluded, hpc]) hs.2.1 hs.2.2
  | _ =>
    rw [Serves, hpc] at hs
    exact Carries.dispatched hs

/-- Every reachable process serves its uplink strings so. -/
theorem commanded (hL : L.Lawful) (h : (system cfg L uplinks).Reachable s) :
    Commanded L uplinks s := by
  have hs := serves_reachable hL h
  refine ⟨fun e he => ?_, hs.dispatched.1, hs.dispatched.2⟩
  rw [Serves, he] at hs
  exact ⟨hs.1, hs.2.1⟩

/-- What leaves `main` is what leaves `start`. -/
theorem throws_iff (hL : L.Lawful) {e : CppException} :
    (∃ s, (system cfg L uplinks).Reachable s ∧ s.pc = .threw e) ↔
      e = Downlink.socketFailed ∨ e = Downlink.threadFailed := by
  constructor
  · rintro ⟨s, hr, hpc⟩
    have hs := serves_reachable hL hr
    rw [Serves, hpc] at hs
    exact hs.1
  · rintro (rfl | rfl)
    · exact ⟨_, Transitions.reachable_of_exec [.main, .downlink .control, .downlink (.socket (-1))]
        rfl, rfl⟩
    · exact ⟨_, Transitions.reachable_of_exec [.main, .downlink .control, .downlink (.socket 3),
        .downlink .control, .downlink (.spawn false)] rfl, rfl⟩

/-- Nothing keeps `main` from ending an iteration. -/
theorem next_concluding (hL : L.Lawful) (hr : (system cfg L uplinks).Reachable s)
    {enqueued : Bool} (hpc : s.pc = .concluding enqueued) (hterm : s.downlink.terminated = false) :
    ∃ es v, next L uplinks s .main = some (s.ran es v .looping) := by
  have hs := serves_reachable hL hr
  rw [Serves, hpc] at hs
  have hdone := conclude_dispatched (hs.returns hL) enqueued rfl
  rcases hrun : (conclude (registerCommandHandlers L {}) enqueued).run s.vars with ⟨es, v, r⟩
  rw [hrun] at hdone
  obtain rfl : r = .ok ⟨⟩ := hdone.1
  exact ⟨es, v, by simp [next, hterm, hpc, Pc.ended, mainStep, hrun]⟩

/-- The end of an iteration is in reach. -/
theorem exists_concluded (hL : L.Lawful)
    (hdepth : 0 < cfg.telemetry_max_frame_queue_depth.toNat) :
    ∃ s, (system cfg L uplinks).Reachable s ∧ 0 < s.concluded := by
  obtain ⟨s, frame, hr, hpc, hticks, -, hdown⟩ := exists_enqueued cfg L uplinks hdepth
  obtain ⟨es, v, hnext⟩ := next_concluding hL hr hpc (by rw [hdown]; rfl)
  exact ⟨_, hr.step hnext, by simp [State.concluded, State.ran, hticks]⟩

end Survival

/-! ## Instances -/

/-- A name with the byte 255 can end the process. -/
theorem terminates_unencodable : ∃ s,
    (system { satellite_name := [255] } TelemetrySerializer.nominalLibrary []).Reachable s ∧
      s.downlink.terminated = true :=
  (terminates_iff TelemetrySerializer.nominalLibrary_lawful).mpr ⟨by decide, by decide⟩

theorem throws_socketFailed : ∃ s,
    (system {} TelemetrySerializer.nominalLibrary []).Reachable s ∧
      s.pc = .threw Downlink.socketFailed :=
  (throws_iff TelemetrySerializer.nominalLibrary_lawful).mpr (Or.inl rfl)

/-- The command of the one string is dispatched. -/
theorem commanded_noop : ∃ s : State {},
    Commanded noopLibrary [⟨noopText, 0⟩] s ∧ Event.dispatched s.events =
      [{ sequence_number := 1, opcode := .NOOP, parameters := .object [] }] := by
  obtain ⟨s, hr, hpos⟩ := @exists_concluded {} noopLibrary [⟨noopText, 0⟩]
    noopLibrary_lawful (by decide)
  have hs := commanded noopLibrary_lawful hr
  refine ⟨s, hs, ?_⟩
  rw [(hs.after hpos).2, uplinked, List.filterMap_cons_some decoded_noop]
  rfl

end Process

end Obcsw
