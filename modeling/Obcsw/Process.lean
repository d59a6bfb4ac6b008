import Obcsw.ConfigLoader
import Obcsw.Lifecycle
import Obcsw.Uplink

/-!
# The process

`main` together with the threads of the dispatcher. `main` builds the subsystems from the
configuration, calls `start`, injects the uplink strings, loops while `g_running` is up, calls
`stop`, reports the counters and destroys the dispatcher, which calls `stop` once more. It is
the control thread and the only caller of the dispatcher, so a state is a `Downlink.State` with
the variables of `main` and the point where it stands. A signal lowers `g_running` at any time.

What `main` does between two of its calls touches nothing the other threads see, and is one
step. An exception that leaves `main` or a dispatch loop ends the process.

`events` and `ticks` are ghost records : what `main` has shown, and the iterations so far with
the answers of `enqueue`. `Knows` is what `main` knows of the dispatcher at each of its points.
-/

set_option linter.unusedSectionVars false

open Exceptions Program

namespace Obcsw

namespace Process

open Downlink (Effect ControlPc LoopPc)
open Main

/-! ## The code of `main` -/

section Code

/-- The configuration `main` runs with : the loaded one, or the defaults. -/
def startup (loaded : Except CppException SatelliteConfig) : Obc PUnit SatelliteConfig :=
  tryCatch (ofExcept loaded) fun e =>
    if e.isA .exception then
      some do
        emit (.cerr (bytes ("[MAIN] Config load failed: " ++ e.what ++ " — using defaults.\n")))
        return {}
    else none

variable (cfg : SatelliteConfig)

/-- What `main` copies from the configuration into the one of the dispatcher. -/
def dispatcherConfig : DispatcherConfig where
  dest_ip := cfg.ground_station_ip
  dest_port := cfg.ground_station_port
  dispatch_interval_ms := cfg.telemetry_dispatch_interval_ms
  max_queue_depth := cfg.telemetry_max_frame_queue_depth

def rule : Bytes :=
  bytes "=================================================\n"

def banner : Bytes :=
  rule ++ bytes "  obcsw  |  " ++ cfg.satellite_name ++ bytes "  |  Mission: " ++ cfg.mission_id
    ++ bytes "\n  Software version: " ++ cfg.software_version ++ bytes "\n" ++ rule

/-- The injections, and the line before the loop. -/
def inject (L : JsonLibrary) (uplinks : List Uplink) : Obc (MainState cfg) PUnit := do
  injectAll cfg L uplinks
  emit (.cout (bytes "[MAIN] OBC loop running — Ctrl+C to stop.\n"))

variable {cfg}

/-- An iteration from the answer of `enqueue` on. -/
def conclude (handler : CommandHandler (MainState cfg)) (enqueued : Bool) :
    Obc (MainState cfg) PUnit := do
  reportDrop enqueued
  drainQueue handler

def shuttingDown : Bytes :=
  bytes "\n[MAIN] Shutting down...\n"

/-- The last line. -/
def report (d : Dispatcher) : Bytes :=
  bytes ("[MAIN] Frames sent=" ++ toString d.framesSent.toNat
    ++ " dropped=" ++ toString d.framesDropped.toNat ++ "\n")

/-- An iteration is its two parts, with the call in between. -/
theorem iteration_eq (handler : CommandHandler (MainState cfg)) (measure : UInt64 → Measurements)
    (enqueued : Bool) : iteration cfg handler ⟨measure, enqueued⟩ =
      prepare cfg measure >>= fun _ => conclude handler enqueued := by
  unfold iteration observe conclude
  rw [bind_assoc]

end Code

/-! ## The process -/

/-- Where `main` stands. -/
inductive Pc
  /-- About to call `start`. -/
  | built
  /-- In `start`. -/
  | starting
  /-- About to inject the uplink strings. -/
  | injecting
  /-- About to read `g_running`. -/
  | looping
  /-- In `enqueue`. -/
  | enqueueing (measure : UInt64 → Measurements)
  /-- Has the answer of `enqueue`. -/
  | concluding (enqueued : Bool)
  /-- In `stop`. -/
  | stopping
  /-- About to report the counters. -/
  | reporting
  /-- In the destructor of the dispatcher. -/
  | destroying
  /-- Has returned. -/
  | exited
  /-- An exception has left `main`. -/
  | threw (e : CppException)

/-- `main` has ended, and with it the process. -/
def Pc.ended : Pc → Bool
  | exited | threw _ => true
  | _ => false

/-- The process. -/
structure State (cfg : SatelliteConfig) where
  downlink : Downlink.State Unit := {}
  vars : MainState cfg := {}
  pc : Pc := .built
  g_running : Bool := true
  events : List Event := []
  ticks : List Tick := []

/-- What happens next. -/
inductive Label
  /-- `main` goes on to its next call, or from one, but for an iteration. -/
  | main
  /-- `main` starts an iteration with these measurements. -/
  | iterate (measure : UInt64 → Measurements)
  /-- A method of the dispatcher that `main` has called goes on, or a dispatch loop does. -/
  | downlink (l : Downlink.Label Unit)
  /-- `SIGINT` or `SIGTERM` arrives. -/
  | signal

section Process

variable {cfg : SatelliteConfig}

namespace State

variable (s : State cfg)

/-- `main` has run a part of its own. -/
def ran (es : List Event) (vars : MainState cfg) (pc : Pc) : State cfg :=
  { s with vars := vars, events := s.events ++ es, pc := pc }

/-- `enqueue` has answered. -/
def answered (measure : UInt64 → Measurements) (enqueued : Bool) : State cfg :=
  { s with pc := .concluding enqueued, ticks := s.ticks ++ [⟨measure, enqueued⟩] }

/-- `main` goes on when a step of the dispatcher shows the return of its call. -/
def resume (es : List Effect) : State cfg :=
  match s.pc, es.getLast? with
  | .starting, some .startReturned => { s with pc := .injecting }
  | .starting, some (.startThrew e) => { s with pc := .threw e }
  | .enqueueing measure, some (.accepted _) => s.answered measure true
  | .enqueueing measure, some (.rejected _) => s.answered measure false
  | .stopping, some .stopReturned => { s with pc := .reporting }
  | .destroying, some .stopReturned => { s with pc := .exited }
  | _, _ => s

end State

variable (L : JsonLibrary) (uplinks : List Uplink) (s : State cfg)

/-- A step of the dispatcher. -/
def downlinkNext (l : Downlink.Label Unit) : Option (Downlink.State Unit) :=
  Downlink.next L (dispatcherConfig cfg) s.downlink l

/-- `main` calls a method of the dispatcher. -/
def call (l : Downlink.Label Unit) (es : List Event) (vars : MainState cfg) (pc : Pc) :
    Option (State cfg) :=
  (downlinkNext L s l).map fun d => { s.ran es vars pc with downlink := d }

/-- `main` goes on. -/
def mainStep : Option (State cfg) :=
  match s.pc with
  | .built => call L s .start [.cout (banner cfg)] s.vars .starting
  | .injecting =>
    match (inject cfg L uplinks).run s.vars with
    | ⟨es, vars, .ok _⟩ => some (s.ran es vars .looping)
    | ⟨es, vars, .error e⟩ => some (s.ran es vars (.threw e))
  | .looping =>
    if s.g_running then none else call L s .stop [.cout shuttingDown] s.vars .stopping
  | .concluding enqueued =>
    match (conclude (registerCommandHandlers L {}) enqueued).run s.vars with
    | ⟨es, vars, .ok _⟩ => some (s.ran es vars .looping)
    | ⟨es, vars, .error e⟩ => some (s.ran es vars (.threw e))
  | .reporting =>
    call L s .stop [.cout (report s.downlink.dispatcher)] s.vars .destroying
  | _ => none

/-- `main` finds `g_running` up, and generates and enqueues a frame. -/
def iterateStep (measure : UInt64 → Measurements) : Option (State cfg) :=
  match s.pc with
  | .looping =>
    if s.g_running then
      match (prepare cfg measure).run s.vars with
      | ⟨es, vars, .ok frame⟩ => call L s (.call () frame) es vars (.enqueueing measure)
      | ⟨es, vars, .error e⟩ => some (s.ran es vars (.threw e))
    else none
  | _ => none

/-- The dispatcher goes on. -/
def downlinkStep (l : Downlink.Label Unit) : Option (State cfg) :=
  if l.isCall then none
  else (downlinkNext L s l).map fun d =>
    { s with downlink := d }.resume (d.log.drop s.downlink.log.length)

/-- One step of the process. -/
def next (l : Label) : Option (State cfg) :=
  if s.downlink.terminated || s.pc.ended then none
  else match l with
    | .main => mainStep L uplinks s
    | .iterate measure => iterateStep L s measure
    | .downlink l => downlinkStep L s l
    | .signal => some { s with g_running := false }

variable (cfg) in
/-- The process, from the point where the subsystems are built. -/
def system : Transitions (State cfg) Label :=
  .ofPartial {} (next L uplinks)

/-! ## What one step does -/

/-- Everything a step can do. -/
inductive Step : Label → State cfg → Prop
  | start (d : Downlink.State Unit) (h : s.pc = .built) (hd : downlinkNext L s .start = some d) :
      Step .main { s.ran [.cout (banner cfg)] s.vars .starting with downlink := d }
  | inject (es : List Event) (vars : MainState cfg) (h : s.pc = .injecting)
      (hrun : (inject cfg L uplinks).run s.vars = ⟨es, vars, .ok ⟨⟩⟩) :
      Step .main (s.ran es vars .looping)
  | injectThrows (es : List Event) (vars : MainState cfg) (e : CppException)
      (h : s.pc = .injecting) (hrun : (inject cfg L uplinks).run s.vars = ⟨es, vars, .error e⟩) :
      Step .main (s.ran es vars (.threw e))
  | stop (d : Downlink.State Unit) (h : s.pc = .looping) (hdown : s.g_running = false)
      (hd : downlinkNext L s .stop = some d) :
      Step .main { s.ran [.cout shuttingDown] s.vars .stopping with downlink := d }
  | conclude (enqueued : Bool) (es : List Event) (vars : MainState cfg)
      (h : s.pc = .concluding enqueued)
      (hrun : (conclude (registerCommandHandlers L {}) enqueued).run s.vars =
        ⟨es, vars, .ok ⟨⟩⟩) : Step .main (s.ran es vars .looping)
  | concludeThrows (enqueued : Bool) (es : List Event) (vars : MainState cfg) (e : CppException)
      (h : s.pc = .concluding enqueued)
      (hrun : (conclude (registerCommandHandlers L {}) enqueued).run s.vars =
        ⟨es, vars, .error e⟩) : Step .main (s.ran es vars (.threw e))
  | report (d : Downlink.State Unit) (h : s.pc = .reporting)
      (hd : downlinkNext L s .stop = some d) :
      Step .main { s.ran [.cout (report s.downlink.dispatcher)] s.vars .destroying with
        downlink := d }
  | iterate (measure : UInt64 → Measurements) (es : List Event) (vars : MainState cfg)
      (frame : TelemetryFrame) (d : Downlink.State Unit) (h : s.pc = .looping)
      (hup : s.g_running = true) (hrun : (prepare cfg measure).run s.vars = ⟨es, vars, .ok frame⟩)
      (hd : downlinkNext L s (.call () frame) = some d) :
      Step (.iterate measure) { s.ran es vars (.enqueueing measure) with downlink := d }
  | iterateThrows (measure : UInt64 → Measurements) (es : List Event) (vars : MainState cfg)
      (e : CppException) (h : s.pc = .looping) (hup : s.g_running = true)
      (hrun : (prepare cfg measure).run s.vars = ⟨es, vars, .error e⟩) :
      Step (.iterate measure) (s.ran es vars (.threw e))
  | downlink (l : Downlink.Label Unit) (d : Downlink.State Unit) (hl : l.isCall = false)
      (hd : downlinkNext L s l = some d) :
      Step (.downlink l) ({ s with downlink := d }.resume (d.log.drop s.downlink.log.length))
  | signal : Step .signal { s with g_running := false }

variable {L uplinks s}

theorem eq_of_call {l : Downlink.Label Unit} {es : List Event} {vars : MainState cfg} {pc : Pc}
    {s' : State cfg} (h : call L s l es vars pc = some s') :
    ∃ d, downlinkNext L s l = some d ∧ s' = { s.ran es vars pc with downlink := d } := by
  obtain ⟨d, hd, rfl⟩ := Option.map_eq_some_iff.mp h
  exact ⟨d, hd, rfl⟩

theorem step_of_mainStep {s' : State cfg} (h : mainStep L uplinks s = some s') :
    Step L uplinks s .main s' := by
  unfold mainStep at h
  split at h
  · next hpc =>
    obtain ⟨d, hd, rfl⟩ := eq_of_call h
    exact .start d hpc hd
  · next hpc =>
    split at h
    · next hrun => obtain rfl := Option.some.inj h; exact .inject _ _ hpc hrun
    · next hrun => obtain rfl := Option.some.inj h; exact .injectThrows _ _ _ hpc hrun
  · next hpc =>
    split at h
    · cases h
    · next hdown =>
      obtain ⟨d, hd, rfl⟩ := eq_of_call h
      exact .stop d hpc (Bool.eq_false_iff.mpr hdown) hd
  · next hpc =>
    split at h
    · next hrun => obtain rfl := Option.some.inj h; exact .conclude _ _ _ hpc hrun
    · next hrun => obtain rfl := Option.some.inj h; exact .concludeThrows _ _ _ _ hpc hrun
  · next hpc =>
    obtain ⟨d, hd, rfl⟩ := eq_of_call h
    exact .report d hpc hd
  · cases h

theorem step_of_iterateStep {measure : UInt64 → Measurements} {s' : State cfg}
    (h : iterateStep L s measure = some s') : Step L uplinks s (.iterate measure) s' := by
  unfold iterateStep at h
  split at h
  · next hpc =>
    split at h
    · next hup =>
      split at h
      · next hrun =>
        obtain ⟨d, hd, rfl⟩ := eq_of_call h
        exact .iterate measure _ _ _ d hpc hup hrun hd
      · next hrun =>
        obtain rfl := Option.some.inj h
        exact .iterateThrows measure _ _ _ hpc hup hrun
    · cases h
  · cases h

theorem step_of_next {l : Label} {s' : State cfg} (h : next L uplinks s l = some s') :
    s.downlink.terminated = false ∧ s.pc.ended = false ∧ Step L uplinks s l s' := by
  unfold next at h
  split at h
  · cases h
  · next hlive =>
    rw [Bool.or_eq_true, not_or, Bool.not_eq_true, Bool.not_eq_true] at hlive
    refine ⟨hlive.1, hlive.2, ?_⟩
    cases l with
    | main => exact step_of_mainStep h
    | iterate measure => exact step_of_iterateStep h
    | downlink l =>
      simp only [downlinkStep] at h
      split at h
      · cases h
      · next hl =>
        obtain ⟨d, hd, rfl⟩ := Option.map_eq_some_iff.mp h
        exact .downlink l d (Bool.eq_false_iff.mpr hl) hd
    | signal =>
      obtain rfl := Option.some.inj h
      exact .signal

/-! ## The dispatcher in the process -/

namespace State

variable (s : State cfg) (es : List Effect)

theorem resume_cases : ∃ pc ticks, s.resume es = { s with pc := pc, ticks := ticks } := by
  unfold resume
  split <;> exact ⟨_, _, rfl⟩

@[simp] theorem resume_downlink : (s.resume es).downlink = s.downlink := by
  obtain ⟨pc, ticks, h⟩ := s.resume_cases es
  rw [h]

@[simp] theorem resume_g_running : (s.resume es).g_running = s.g_running := by
  obtain ⟨pc, ticks, h⟩ := s.resume_cases es
  rw [h]

end State

/-- A step of the process is one of the dispatcher, or leaves the dispatcher alone. -/
theorem downlink_of_step {l : Label} {s' : State cfg} (h : Step L uplinks s l s') :
    s'.downlink = s.downlink ∨ ∃ k, downlinkNext L s k = some s'.downlink := by
  cases h with
  | start d h hd => exact Or.inr ⟨_, hd⟩
  | stop d h hdown hd => exact Or.inr ⟨_, hd⟩
  | report d h hd => exact Or.inr ⟨_, hd⟩
  | iterate measure es vars frame d h hup hrun hd => exact Or.inr ⟨_, hd⟩
  | downlink k d hk hd => exact Or.inr ⟨k, by rw [State.resume_downlink]; exact hd⟩
  | _ => exact Or.inl rfl

/-- The dispatcher of a reachable process is in a reachable state. -/
theorem downlink_reachable {s : State cfg} (h : (system cfg L uplinks).Reachable s) :
    (Downlink.system Unit L (dispatcherConfig cfg)).Reachable s.downlink := by
  refine h.induct (I := fun s => (Downlink.system Unit L (dispatcherConfig cfg)).Reachable
    s.downlink) (fun s hs => ?_) fun s l s' _ hs hstep => ?_
  · obtain rfl : s = {} := hs
    exact Transitions.reachable_of_initial rfl
  · rcases downlink_of_step (step_of_next hstep).2.2 with hsame | ⟨k, hk⟩
    · rw [hsame]
      exact hs
    · exact hs.step hk

/-! ## What `main` knows of the dispatcher -/

/-- In `start`, and in `stop`. -/
def inStart : ControlPc → Bool
  | .starting | .opening | .raising | .spawning => true
  | _ => false

def inStop : ControlPc → Bool
  | .stopping | .clearing | .joining | .closing => true
  | _ => false

theorem inStop_of_inStart {c : ControlPc} (h : inStart c = true) : inStop c = false := by
  cases c <;> first | rfl | cases h

/-- What holds of the control thread, the flag and the caller of the dispatcher. -/
def Pc.Knows : Pc → ControlPc → Bool → Option TelemetryFrame → Prop
  | built, c, running, frame => c = .idle ∧ running = false ∧ frame = none
  | starting, c, running, frame =>
    inStart c = true ∧ (c = .starting → running = false) ∧ frame = none
  | injecting, c, running, frame | looping, c, running, frame
  | concluding _, c, running, frame => c = .idle ∧ running = true ∧ frame = none
  | enqueueing _, c, running, frame => c = .idle ∧ running = true ∧ frame ≠ none
  | stopping, c, running, frame =>
    inStop c = true ∧ (c = .stopping → running = true) ∧ frame = none
  | reporting, c, running, frame | exited, c, running, frame =>
    c = .idle ∧ running = false ∧ frame = none
  | destroying, c, running, frame => c = .stopping ∧ running = false ∧ frame = none
  | threw _, _, _, _ => True

/-- `main` knows the dispatcher at `s`. -/
def Knows (s : State cfg) : Prop :=
  s.pc.Knows s.downlink.control s.downlink.dispatcher.m_running (s.downlink.callers ())

section Knows

variable {pc : Pc} {c : ControlPc} {running : Bool} {frame : Option TelemetryFrame}

theorem Pc.Knows.starting (h : pc.Knows c running frame) (hpc : pc.ended = false)
    (hc : inStart c = true) : pc = .starting := by
  cases pc with
  | starting => rfl
  | threw e => cases hpc
  | stopping =>
    have hstop := h.1
    rw [inStop_of_inStart hc] at hstop
    cases hstop
  | _ =>
    rw [h.1] at hc
    cases hc

theorem Pc.Knows.stopping (h : pc.Knows c running frame) (hpc : pc.ended = false)
    (hc : inStop c = true) :
    pc = .stopping ∨ (pc = .destroying ∧ c = .stopping ∧ running = false) := by
  cases pc with
  | stopping => exact Or.inl rfl
  | destroying => exact Or.inr ⟨rfl, h.1, h.2.1⟩
  | threw e => cases hpc
  | starting =>
    rw [inStop_of_inStart h.1] at hc
    cases hc
  | _ =>
    rw [h.1] at hc
    cases hc

theorem Pc.Knows.enqueueing (h : pc.Knows c running frame) (hpc : pc.ended = false)
    (hframe : frame ≠ none) : ∃ measure, pc = .enqueueing measure := by
  cases pc with
  | enqueueing measure => exact ⟨measure, rfl⟩
  | threw e => cases hpc
  | _ => exact absurd h.2.2 hframe

end Knows

/-- The completed calls of `enqueue`, with their answers. -/
def calls (es : List Effect) : List (TelemetryFrame × Bool) :=
  es.filterMap fun
    | .accepted frame => some (frame, true)
    | .rejected frame => some (frame, false)
    | _ => none

@[simp] theorem calls_append (es es' : List Effect) : calls (es ++ es') = calls es ++ calls es' :=
  List.filterMap_append

/-- The effects a method returns with. -/
def answers : Effect → Bool
  | .accepted _ | .rejected _ | .startReturned | .startThrew _ | .stopReturned => true
  | _ => false

/-- Without an answer among the effects, `main` stays where it is. -/
theorem resume_of_still (s : State cfg) {es : List Effect} (h : ∀ e ∈ es, answers e = false) :
    s.resume es = s := by
  have hlast : ∀ e, es.getLast? = some e → answers e = false :=
    fun e he => h e (List.mem_of_getLast? he)
  unfold State.resume
  split
  · next he => cases hlast _ he
  · next he => cases hlast _ he
  · next he => cases hlast _ he
  · next he => cases hlast _ he
  · next he => cases hlast _ he
  · next he => cases hlast _ he
  · rfl

theorem calls_of_still {es : List Effect} (h : ∀ e ∈ es, answers e = false) : calls es = [] := by
  refine List.filterMap_eq_nil_iff.mpr fun e he => ?_
  have hstill := h e he
  cases e <;> first | rfl | cases hstill

/-- What a step that takes the dispatcher to `d` does to `main`. -/
inductive Resumes (s : State cfg) (d : Downlink.State Unit) : State cfg → Prop
  /-- Nothing. -/
  | still (hcalls : calls d.log = calls s.downlink.log)
      (hcaller : d.callers () = s.downlink.callers ())
      (hknows : s.pc.Knows d.control d.dispatcher.m_running (d.callers ())) :
      Resumes s d { s with downlink := d }
  /-- `start` returns. -/
  | started (hpc : s.pc = .starting) (hcalls : calls d.log = calls s.downlink.log)
      (hknows : Pc.injecting.Knows d.control d.dispatcher.m_running (d.callers ())) :
      Resumes s d { s with downlink := d, pc := .injecting }
  /-- `start` throws. -/
  | failed (hpc : s.pc = .starting) (hcalls : calls d.log = calls s.downlink.log)
      (e : CppException) (he : e = Downlink.socketFailed ∨ e = Downlink.threadFailed) :
      Resumes s d { s with downlink := d, pc := .threw e }
  /-- `enqueue` returns. -/
  | answered (measure : UInt64 → Measurements) (frame : TelemetryFrame) (enqueued : Bool)
      (hpc : s.pc = .enqueueing measure) (hframe : s.downlink.callers () = some frame)
      (hcalls : calls d.log = calls s.downlink.log ++ [(frame, enqueued)])
      (hknows : (Pc.concluding enqueued).Knows d.control d.dispatcher.m_running (d.callers ())) :
      Resumes s d ({ s with downlink := d }.answered measure enqueued)
  /-- `stop` returns. -/
  | stopped (hpc : s.pc = .stopping) (hcalls : calls d.log = calls s.downlink.log)
      (hknows : Pc.reporting.Knows d.control d.dispatcher.m_running (d.callers ())) :
      Resumes s d { s with downlink := d, pc := .reporting }
  /-- The destructor returns. -/
  | destroyed (hpc : s.pc = .destroying) (hcalls : calls d.log = calls s.downlink.log)
      (hknows : Pc.exited.Knows d.control d.dispatcher.m_running (d.callers ())) :
      Resumes s d { s with downlink := d, pc := .exited }

/-- A step of the dispatcher that answers nothing. -/
theorem resumes_still {d : Downlink.State Unit} {es : List Effect}
    (hlog : d.log = s.downlink.log ++ es) (hes : ∀ e ∈ es, answers e = false)
    (hcaller : d.callers () = s.downlink.callers ())
    (hknows : s.pc.Knows d.control d.dispatcher.m_running (d.callers ())) :
    Resumes s d ({ s with downlink := d }.resume (d.log.drop s.downlink.log.length)) := by
  rw [hlog, List.drop_left, resume_of_still _ hes]
  refine .still ?_ hcaller hknows
  rw [hlog, calls_append, calls_of_still hes, List.append_nil]

/-- A step of the dispatcher that answers. -/
theorem resumes_answer {d : Downlink.State Unit} {es : List Effect} {s' : State cfg}
    (hlog : d.log = s.downlink.log ++ es) (hresume : { s with downlink := d }.resume es = s')
    (h : Resumes s d s') :
    Resumes s d ({ s with downlink := d }.resume (d.log.drop s.downlink.log.length)) := by
  rw [hlog, List.drop_left, hresume]
  exact h

theorem calls_shown {d : Downlink.State Unit} {es : List Effect}
    (hlog : d.log = s.downlink.log ++ es) (hes : calls es = []) :
    calls d.log = calls s.downlink.log := by
  rw [hlog, calls_append, hes, List.append_nil]

/-- Everything a step of the dispatcher can do to `main`. -/
theorem resumes_of_step {d : Downlink.State Unit} {l : Downlink.Label Unit} (hs : Knows s)
    (hend : s.pc.ended = false) (hl : l.isCall = false)
    (hr : (Downlink.system Unit L (dispatcherConfig cfg)).Reachable s.downlink)
    (h : Downlink.Step L (dispatcherConfig cfg) s.downlink l d) :
    Resumes s d ({ s with downlink := d }.resume (d.log.drop s.downlink.log.length)) := by
  have hsockets := (Downlink.sockets_reachable hr).knows
  unfold Knows at hs
  cases h with
  | call | start | stop => cases hl
  | check | sleep | drained | serialize | serializeThrows =>
    exact resumes_still (List.append_nil _).symm (by simp) rfl hs
  | pop => exact resumes_still rfl (by simp [answers]) rfl hs
  | send => exact resumes_still rfl (by simp [answers]) rfl hs
  | count i frame sent h =>
    refine resumes_still rfl (by simp [answers]) rfl ?_
    cases sent <;> exact hs
  | enqueue t frame h =>
    obtain ⟨measure, hpc⟩ := hs.enqueueing hend (by rw [h]; exact Option.some_ne_none frame)
    rw [hpc] at hs
    have hrun := @Downlink.enqueue_m_running (dispatcherConfig cfg) s.downlink.dispatcher frame
    refine resumes_answer rfl ?_ (.answered measure frame
      (s.downlink.dispatcher.enqueue (dispatcherConfig cfg) frame).1 hpc h ?_
      ⟨hs.1, hrun.trans hs.2.1, by simp [Downlink.State.record]⟩)
    · cases (s.downlink.dispatcher.enqueue (dispatcherConfig cfg) frame).1 <;>
        simp [State.resume, hpc]
    · rw [Downlink.State.record, calls_append]
      cases (s.downlink.dispatcher.enqueue (dispatcherConfig cfg) frame).1 <;> rfl
  | startRunning h hrun =>
    have hpc := hs.starting hend (by rw [h]; rfl)
    rw [hpc, h] at hs
    rw [hs.2.1 rfl] at hrun
    cases hrun
  | startStopped h | raise h =>
    have hpc := hs.starting hend (by rw [h]; rfl)
    rw [hpc] at hs
    refine resumes_still (List.append_nil _).symm (by simp) rfl ?_
    rw [hpc]
    exact ⟨rfl, by rintro ⟨⟩, hs.2.2⟩
  | socket fd h hfd =>
    have hpc := hs.starting hend (by rw [h]; rfl)
    rw [hpc] at hs
    refine resumes_still rfl (by simp [answers]) rfl ?_
    rw [hpc]
    exact ⟨rfl, by rintro ⟨⟩, hs.2.2⟩
  | socketFails fd h hfd =>
    have hpc := hs.starting hend (by rw [h]; rfl)
    exact resumes_answer rfl (by simp [State.resume, hpc])
      (.failed hpc (calls_shown rfl rfl) _ (Or.inl rfl))
  | spawnFails h =>
    have hpc := hs.starting hend (by rw [h]; rfl)
    exact resumes_answer rfl (by simp [State.resume, hpc])
      (.failed hpc (calls_shown rfl rfl) _ (Or.inr rfl))
  | spawnJoinable i h hthread => exact resumes_still (List.append_nil _).symm (by simp) rfl hs
  | spawn h hthread =>
    have hpc := hs.starting hend (by rw [h]; rfl)
    rw [hpc] at hs
    rw [h] at hsockets
    exact resumes_answer rfl (by simp [State.resume, hpc])
      (.started hpc (calls_shown rfl rfl) ⟨rfl, hsockets.1, hs.2.2⟩)
  | stopStopped h hrun =>
    rcases hs.stopping hend (by rw [h]; rfl) with hpc | ⟨hpc, -, -⟩
    · rw [hpc] at hs
      rw [hs.2.1 h] at hrun
      cases hrun
    · rw [hpc] at hs
      exact resumes_answer rfl (by simp [State.resume, hpc])
        (.destroyed hpc (calls_shown rfl rfl) ⟨rfl, hrun, hs.2.2⟩)
  | stopRunning h hrun =>
    rcases hs.stopping hend (by rw [h]; rfl) with hpc | ⟨-, -, hdown⟩
    · rw [hpc] at hs
      refine resumes_still (List.append_nil _).symm (by simp) rfl ?_
      rw [hpc]
      exact ⟨rfl, by rintro ⟨⟩, hs.2.2⟩
    · rw [hdown] at hrun
      cases hrun
  | clear h | joinNone h | join i h =>
    rcases hs.stopping hend (by rw [h]; rfl) with hpc | ⟨-, hc, -⟩
    · rw [hpc] at hs
      refine resumes_still (List.append_nil _).symm (by simp) rfl ?_
      rw [hpc]
      exact ⟨rfl, by rintro ⟨⟩, hs.2.2⟩
    · rw [h] at hc
      cases hc
  | close h hfd | closeNone h hfd =>
    rcases hs.stopping hend (by rw [h]; rfl) with hpc | ⟨-, hc, -⟩
    · rw [hpc] at hs
      rw [h] at hsockets
      exact resumes_answer rfl (by simp [State.resume, hpc])
        (.stopped hpc (calls_shown rfl rfl) ⟨rfl, hsockets.1, hs.2.2⟩)
    · rw [h] at hc
      cases hc

theorem Resumes.downlink_eq {d : Downlink.State Unit} {s' : State cfg} (h : Resumes s d s') :
    s'.downlink = d := by
  cases h <;> rfl

theorem Resumes.knows {d : Downlink.State Unit} {s' : State cfg} (h : Resumes s d s') :
    Knows s' := by
  cases h with
  | failed => exact trivial
  | still _ _ hknows => exact hknows
  | started _ _ hknows => exact hknows
  | answered _ _ _ _ _ _ hknows => exact hknows
  | stopped _ _ hknows => exact hknows
  | destroyed _ _ hknows => exact hknows

theorem eq_of_start {d : Downlink.State Unit} (h : downlinkNext L s .start = some d) :
    d = s.downlink.toControl .starting := by
  obtain ⟨-, hstep⟩ := Downlink.step_of_next h
  cases hstep
  rfl

theorem eq_of_stop {d : Downlink.State Unit} (h : downlinkNext L s .stop = some d) :
    d = s.downlink.toControl .stopping := by
  obtain ⟨-, hstep⟩ := Downlink.step_of_next h
  cases hstep
  rfl

theorem eq_of_enqueue {frame : TelemetryFrame} {d : Downlink.State Unit}
    (h : downlinkNext L s (.call () frame) = some d) : d = { s.downlink with
      callers := Function.update s.downlink.callers () (some frame) } := by
  obtain ⟨-, hstep⟩ := Downlink.step_of_next h
  cases hstep
  rfl

/-- Every step keeps what `main` knows. -/
theorem Knows.step {l : Label} {s' : State cfg} (hs : Knows s) (hend : s.pc.ended = false)
    (hr : (Downlink.system Unit L (dispatcherConfig cfg)).Reachable s.downlink)
    (h : Step L uplinks s l s') : Knows s' := by
  have hknows : s.pc.Knows s.downlink.control s.downlink.dispatcher.m_running
    (s.downlink.callers ()) := hs
  cases h with
  | start d h hd =>
    obtain rfl := eq_of_start hd
    rw [h] at hknows
    exact ⟨rfl, fun _ => hknows.2.1, hknows.2.2⟩
  | inject es vars h hrun | conclude enqueued es vars h hrun =>
    rw [h] at hknows
    exact hknows
  | injectThrows | concludeThrows | iterateThrows => exact trivial
  | stop d h hdown hd =>
    obtain rfl := eq_of_stop hd
    rw [h] at hknows
    exact ⟨rfl, fun _ => hknows.2.1, hknows.2.2⟩
  | report d h hd =>
    obtain rfl := eq_of_stop hd
    rw [h] at hknows
    exact ⟨rfl, hknows.2.1, hknows.2.2⟩
  | iterate measure es vars frame d h hup hrun hd =>
    obtain rfl := eq_of_enqueue hd
    rw [h] at hknows
    refine ⟨hknows.1, hknows.2.1, ?_⟩
    simp
  | downlink k d hk hd => exact (resumes_of_step hs hend hk hr (Downlink.step_of_next hd).2).knows
  | signal => exact hs

theorem knows_reachable {s : State cfg} (h : (system cfg L uplinks).Reachable s) : Knows s := by
  refine h.induct (fun s hs => ?_) fun s l s' hr hs hstep => ?_
  · obtain rfl : s = {} := hs
    exact ⟨rfl, rfl, rfl⟩
  · obtain ⟨-, hend, hstep⟩ := step_of_next hstep
    exact hs.step hend (downlink_reachable hr) hstep

end Process

end Process

end Obcsw
