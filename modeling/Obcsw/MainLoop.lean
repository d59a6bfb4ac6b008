import Obcsw.DrainLoop
import Obcsw.FaultDetector

/-!
# The main program

What `main` does on its own thread once the configuration is loaded : `injectCmd` for the
uplink strings, and the loop that generates a frame, evaluates it, hands it to the telemetry
dispatcher and drains the command queue. `MainState` holds the variables the lambdas and the
loop write.

`generateFrame` computes most measured values from the clock and from `std::sin`. Here a `Tick`
brings the measurements of an iteration, any whatever; `SimulatedFrame` computes those of the
program, and `Tick.simulated` are its ticks. A `Tick` also brings the answer of
`dispatcher.enqueue`, which depends on the dispatcher's thread.
-/

open Exceptions Program

namespace Obcsw

/-! ## Generating a frame -/

/-- The values `generateFrame` takes from the clock and from double arithmetic. -/
structure Simulation where
  timestamp_ms : UInt64 := 0
  battery_voltage_v : Binary64 := 0.0
  battery_current_ma : Binary64 := 0.0
  solar_input_w : Binary64 := 0.0
  charge_pct : UInt8 := 0
  obc_temp_c : Binary64 := 0.0
  battery_temp_c : Binary64 := 0.0
  payload_temp_c : Binary64 := 0.0
  uptime_s : UInt64 := 0

/-- The measured values of one frame. -/
structure Measurements extends Simulation where
  cpu_usage_pct : UInt8 := 0
  memory_usage_pct : UInt8 := 0

/-- The simulated usage drifts upward with the frame id, then resets. -/
def Simulation.measure (sim : Simulation) (frame_id : UInt64) : Measurements :=
  { sim with
    cpu_usage_pct := (30 + frame_id % 60).toUInt8
    memory_usage_pct := (40 + frame_id % 45).toUInt8 }

/-- The frame with these measurements. -/
def generateFrame (m : Measurements) (frame_id : UInt64) (satellite_id : Bytes)
    (fault_active : Bool := false) (safe_mode : Bool := false) (last_fault_code : UInt32 := 0) :
    TelemetryFrame where
  frame_id := frame_id
  timestamp_ms := m.timestamp_ms
  satellite_id := satellite_id
  battery_voltage_v := m.battery_voltage_v
  battery_current_ma := m.battery_current_ma
  solar_input_w := m.solar_input_w
  charge_pct := m.charge_pct
  obc_temp_c := m.obc_temp_c
  battery_temp_c := m.battery_temp_c
  payload_temp_c := m.payload_temp_c
  cpu_usage_pct := m.cpu_usage_pct
  memory_usage_pct := m.memory_usage_pct
  uptime_s := m.uptime_s
  fault_active := fault_active
  safe_mode := safe_mode
  last_fault_code := last_fault_code

/-- What one iteration of the loop takes from outside. -/
structure Tick where
  measure : UInt64 → Measurements
  /-- The answer of `dispatcher.enqueue`. -/
  enqueued : Bool := true

/-- The ticks of the program. -/
def Tick.simulated (sim : Simulation) (enqueued : Bool) : Tick :=
  ⟨sim.measure, enqueued⟩

/-! ## The variables of `main` -/

/-- The variables of `main` that change. -/
structure MainState (cfg : SatelliteConfig) where
  safe_mode : Bool := false
  fault_code : UInt32 := 0
  fault_active : Bool := false
  cmd_queue : CommandQueue cfg.command_max_queue_depth := .init _
  frame_id : UInt64 := 0

/-- The queue of `main`. -/
def CommandDrain.mainQueue (cfg : SatelliteConfig) :
    CommandDrain.QueueIn (MainState cfg) cfg.command_max_queue_depth where
  get s := s.cmd_queue
  set s cmd_queue := { s with cmd_queue := cmd_queue }
  get_set _ _ := rfl

@[simp]
theorem CommandDrain.commands_mainQueue {cfg : SatelliteConfig} (s : MainState cfg) :
    (mainQueue cfg).commands s = s.cmd_queue.m_queue :=
  rfl

namespace Main

open CommandDrain (QueueIn serve drain mainQueue drain_of_nil drain_of_cons commands_popped)

section Main

variable {cfg : SatelliteConfig}

/-- The fault callback. -/
def faultCallback (evt : FaultEvent) : Obc (MainState cfg) PUnit := do
  update fun s => { s with fault_active := true, fault_code := evt.code.toUInt32 }
  emit (.cerr (bytes ("[FAULT] " ++ evt.message ++ " (measured=" ++ evt.measured_value.toFixed 2
    ++ ", threshold=" ++ evt.threshold_value.toFixed 2 ++ ")\n")))
  if evt.code = .CPU_OVERLOAD ∨ evt.code = .MEMORY_OVERLOAD then
    update fun s => { s with safe_mode := true }
    emit (.cerr (bytes "[FAULT] Entering safe mode.\n"))

/-- A handler that prints a line and succeeds. -/
def printing {σ : Type} (line : Command → Bytes) (cmd : Command) : Obc σ CommandResult := do
  emit (.cout (line cmd))
  return .SUCCESS

/-- The handler of `SET_MODE`; what comes before `dump` is printed before it throws. -/
def setMode {σ : Type} (L : JsonLibrary) (cmd : Command) : Obc σ CommandResult := do
  emit (.cout (bytes "[CMD] SET_MODE subsystem=" ++ cmd.subsystem ++ bytes " params="))
  let params ← ofExcept (L.dumpThrowing cmd.parameters)
  emit (.cout (params ++ bytes "\n"))
  return .SUCCESS

/-- Register all uplink command handlers. -/
def registerCommandHandlers {σ : Type} (L : JsonLibrary) (handler : CommandHandler σ) :
    CommandHandler σ :=
  handler
    |>.registerHandler .NOOP (some (printing (seqLine "[CMD] NOOP seq=")))
    |>.registerHandler .SET_MODE (some (setMode L))
    |>.registerHandler .RESET_SUBSYSTEM (some (printing fun cmd =>
      bytes "[CMD] RESET_SUBSYSTEM subsystem=" ++ cmd.subsystem ++ bytes "\n"))
    |>.registerHandler .PAYLOAD_ON (some (printing (seqLine "[CMD] PAYLOAD_ON seq=")))
    |>.registerHandler .PAYLOAD_OFF (some (printing (seqLine "[CMD] PAYLOAD_OFF seq=")))
    |>.registerHandler .DOWNLINK_TELEMETRY
      (some (printing (seqLine "[CMD] DOWNLINK_TELEMETRY requested seq=")))

/-! ## The uplink -/

/-- Parse a command and push it; report whatever the parser throws. -/
def injectCmd (L : JsonLibrary) (now : UInt64) (json : Bytes) : Obc (MainState cfg) PUnit :=
  tryCatch
    (do
      let cmd ← ofExcept (CommandDeserializer.fromJson L now json)
      update fun s => { s with cmd_queue := (s.cmd_queue.push cmd).2 })
    fun e =>
      if e.isA .exception then
        some (emit (.cerr (bytes ("[MAIN] Bad test command: " ++ e.what ++ "\n"))))
      else none

/-- Drain the command queue. The handlers do not touch the queue, so one round more than it
has commands ends the loop (`drain_of_lt`). -/
def drainQueue (handler : CommandHandler (MainState cfg)) : Obc (MainState cfg) PUnit :=
  CommandDrain.drainQueue (mainQueue cfg) handler

/-! ## The loop -/

/-- The human-readable snapshot of a frame. -/
def snapshot (frame : TelemetryFrame) : Bytes :=
  bytes ("[TLM ] frame="
    ++ String.ofList (List.leftpad 4 ' ' (toString frame.frame_id.toNat).toList)
    ++ " bat=" ++ frame.battery_voltage_v.toFixed 2 ++ "V"
    ++ " obc_tmp=" ++ frame.obc_temp_c.toFixed 2 ++ "°C"
    ++ " cpu=" ++ toString frame.cpu_usage_pct.toNat ++ "%"
    ++ " mem=" ++ toString frame.memory_usage_pct.toNat ++ "%"
    ++ (if frame.safe_mode then " [SAFE-MODE]" else "") ++ "\n")

/-- Report a frame that `enqueue` has refused. -/
def reportDrop {σ : Type} (enqueued : Bool) : Obc σ PUnit := do
  if !enqueued then
    emit (.cerr (bytes "[MAIN] Telemetry queue full — frame dropped.\n"))

variable (cfg)

/-- An iteration up to the call of `enqueue`. -/
def prepare (measure : UInt64 → Measurements) : Obc (MainState cfg) TelemetryFrame := do
  let s ← getState
  let frame := generateFrame (measure s.frame_id) s.frame_id cfg.satellite_name
    s.fault_active s.safe_mode s.fault_code
  update fun s => { s with frame_id := s.frame_id + 1 }
  update fun s => { s with fault_active := false }
  FaultDetector.evaluate ⟨cfg, some faultCallback⟩ frame
  let s ← getState
  let frame := { frame with
    fault_active := s.fault_active, safe_mode := s.safe_mode, last_fault_code := s.fault_code }
  emit (.cout (snapshot frame))
  emit (.enqueue frame)
  return frame

/-- The steps of an iteration up to the downlink. -/
def observe (tick : Tick) : Obc (MainState cfg) PUnit := do
  let _ ← prepare cfg tick.measure
  reportDrop tick.enqueued

/-- One iteration. -/
def iteration (handler : CommandHandler (MainState cfg)) (tick : Tick) :
    Obc (MainState cfg) PUnit := do
  observe cfg tick
  drainQueue handler

/-- The loop, for as many iterations as `g_running` is found true. -/
def loop (handler : CommandHandler (MainState cfg)) (ticks : List Tick) :
    Obc (MainState cfg) PUnit :=
  ticks.forM (iteration cfg handler)

theorem loop_cons (handler : CommandHandler (MainState cfg)) (tick : Tick) (ticks : List Tick) :
    loop cfg handler (tick :: ticks) =
      iteration cfg handler tick >>= fun _ => loop cfg handler ticks :=
  rfl

end Main

/-! ## Programs that only print -/

section Harmless

variable {σ α β : Type}

/-- The program leaves the variables alone, and hands out no frame and no command. -/
def Harmless (m : Obc σ α) : Prop :=
  ∀ w, (m.run w).state = w ∧ Event.enqueued (m.run w).events = [] ∧
    Event.dispatched (m.run w).events = []

theorem harmless_pure (a : α) : Harmless (pure a : Obc σ α) :=
  fun _ => ⟨rfl, rfl, rfl⟩

theorem harmless_ofExcept (x : Except CppException α) : Harmless (ofExcept x : Obc σ α) :=
  fun _ => ⟨rfl, rfl, rfl⟩

theorem harmless_cout (text : Bytes) : Harmless (emit (.cout text) : Obc σ PUnit) :=
  fun _ => ⟨rfl, rfl, rfl⟩

theorem harmless_cerr (text : Bytes) : Harmless (emit (.cerr text) : Obc σ PUnit) :=
  fun _ => ⟨rfl, rfl, rfl⟩

theorem harmless_invoke (opcode : UInt8) (cmd : Command) :
    Harmless (emit (.invoke opcode cmd) : Obc σ PUnit) :=
  fun _ => ⟨rfl, rfl, rfl⟩

theorem Harmless.bind {m : Obc σ α} {f : α → Obc σ β} (hm : Harmless m)
    (hf : ∀ a, Harmless (f a)) : Harmless (m >>= f) := by
  intro w
  obtain ⟨hs, hq, hd⟩ := hm w
  rw [bind_run]
  rcases hrun : m.run w with ⟨es, w', r⟩
  rw [hrun] at hs hq hd
  simp only at hs hq hd
  subst hs
  cases r with
  | error e => exact ⟨rfl, hq, hd⟩
  | ok a =>
    obtain ⟨hs', hq', hd'⟩ := hf a w'
    rw [Outcome.andThen_ok]
    refine ⟨hs', ?_, ?_⟩
    · rw [Outcome.after, Event.enqueued_append, hq, hq', List.append_nil]
    · rw [Outcome.after, Event.dispatched_append, hd, hd', List.append_nil]

/-- A property of the two kinds of handlers is one of every handler of the program. -/
theorem callbacks_registered (L : JsonLibrary) {P : (Command → Obc σ CommandResult) → Prop}
    (hprinting : ∀ line, P (printing line)) (hsetMode : P (setMode L)) :
    (registerCommandHandlers L {}).Callbacks P :=
  (CommandHandler.callbacks_empty P)
    |>.registerHandler .NOOP (hprinting _)
    |>.registerHandler .SET_MODE hsetMode
    |>.registerHandler .RESET_SUBSYSTEM (hprinting _)
    |>.registerHandler .PAYLOAD_ON (hprinting _)
    |>.registerHandler .PAYLOAD_OFF (hprinting _)
    |>.registerHandler .DOWNLINK_TELEMETRY (hprinting _)

theorem harmless_dispatch {H : CommandHandler σ}
    (hH : H.Callbacks fun f => ∀ cmd, Harmless (f cmd)) (cmd : Command) :
    Harmless (H.dispatch cmd) := by
  unfold CommandHandler.dispatch
  cases h : H.m_handlers cmd.opcode.toByte with
  | none => exact (harmless_cerr _).bind fun _ => harmless_pure _
  | some callback =>
    obtain ⟨f, rfl, hf⟩ := hH _ _ h
    exact (harmless_invoke _ _).bind fun _ => hf cmd

/-- The handlers of the program only print. -/
theorem harmless_registered (L : JsonLibrary) (cmd : Command) :
    Harmless ((registerCommandHandlers L {}).dispatch cmd : Obc σ CommandResult) :=
  harmless_dispatch
    (callbacks_registered L
      (fun _ _ => (harmless_cout _).bind fun _ => harmless_pure _)
      fun _ => (harmless_cout _).bind fun _ => (harmless_ofExcept _).bind fun _ =>
        (harmless_cout _).bind fun _ => harmless_pure _) cmd

end Harmless

/-! ## The drain loop -/

section Drain

variable {σ : Type} {m_max_depth : UInt32} {Q : QueueIn σ m_max_depth} {H : CommandHandler σ}
  (hH : ∀ cmd, Harmless (H.dispatch cmd))

include hH

/-- One round dispatches its command and leaves the variables alone. -/
theorem serve_run (cmd : Command) (w : σ) : ((serve H cmd).run w).state = w ∧
    Event.enqueued ((serve H cmd).run w).events = [] ∧
    Event.dispatched ((serve H cmd).run w).events = [cmd] := by
  have hrest : Harmless (do
      let result ← H.dispatch cmd
      if result ≠ .SUCCESS then
        emit (.cerr (seqLine "[CMD ] Dispatch failed for seq=" cmd))) := by
    refine (hH cmd).bind fun result => ?_
    split
    · exact harmless_cerr _
    · exact harmless_pure _
  obtain ⟨hs, hq, hd⟩ := hrest w
  exact ⟨hs, hq, congrArg (cmd :: ·) hd⟩

/-- A round returns when the dispatch does. -/
theorem serve_returns {cmd : Command} {w : σ}
    (h : ∃ r, ((H.dispatch cmd).run w).result = .ok r) :
    ((serve H cmd).run w).result = .ok ⟨⟩ := by
  obtain ⟨r, hr⟩ := h
  have hs := (hH cmd w).1
  rcases hrun : (H.dispatch cmd).run w with ⟨es, w', r'⟩
  rw [hrun] at hr hs
  simp only at hr hs
  subst hr hs
  unfold serve
  simp only [bind_run, emit_run, Outcome.andThen_ok, hrun]
  cases r <;> rfl

/-- A round of a queue with a front command : the rest of the loop starts without it. -/
theorem drain_round {w : σ} {cmd : Command} {rest : List Command}
    (hq : Q.commands w = cmd :: rest) : ∃ es r,
      (serve H cmd).run (Q.popped w) = ⟨es, Q.popped w, r⟩ ∧ Event.enqueued es = [] ∧
      Event.dispatched es = [cmd] ∧ ∀ n, (drain Q H (n + 1)).run w =
        Outcome.andThen ⟨es, Q.popped w, r⟩ fun _ => drain Q H n := by
  obtain ⟨hs, henq, hdis⟩ := serve_run hH cmd (Q.popped w)
  rcases hserve : (serve H cmd).run (Q.popped w) with ⟨es, w', r⟩
  rw [hserve] at hs henq hdis
  simp only at hs henq hdis
  subst hs
  refine ⟨es, r, rfl, henq, hdis, fun n => ?_⟩
  rw [drain_of_cons hq, hserve]

/-- Draining hands out no frame. -/
theorem drain_enqueued : ∀ (n : ℕ) (w : σ), Event.enqueued ((drain Q H n).run w).events = []
  | 0, _ => rfl
  | n + 1, w => by
    cases hq : Q.commands w with
    | nil =>
      rw [drain_of_nil hq]
      rfl
    | cons cmd rest =>
      obtain ⟨es, r, -, henq, -, hdrain⟩ := drain_round hH hq
      rw [hdrain]
      cases r with
      | error e => exact henq
      | ok _ =>
        rw [Outcome.andThen_ok, Outcome.after, Event.enqueued_append, henq,
          drain_enqueued n (Q.popped w), List.append_nil]

/-- With rounds for all its commands, and callbacks that return, draining dispatches the
queue in order and leaves it empty. -/
theorem drain_returns : ∀ (n : ℕ) (w : σ), (Q.commands w).length < n →
    (∀ cmd ∈ Q.commands w, ∀ w, ∃ r, ((H.dispatch cmd).run w).result = .ok r) →
    ((drain Q H n).run w).result = .ok ⟨⟩ ∧ Q.commands ((drain Q H n).run w).state = [] ∧
      Event.dispatched ((drain Q H n).run w).events = Q.commands w
  | 0, _, hn, _ => absurd hn (Nat.not_lt_zero _)
  | n + 1, w, hn, hs => by
    cases hq : Q.commands w with
    | nil =>
      rw [drain_of_nil hq]
      exact ⟨rfl, hq, rfl⟩
    | cons cmd rest =>
      obtain ⟨es, r, hserve, -, hdis, hdrain⟩ := drain_round hH hq
      have hrest := commands_popped hq
      rw [hq] at hn hs
      obtain ⟨hfirst, hothers⟩ := List.forall_mem_cons.mp hs
      have hr := serve_returns hH (hfirst (Q.popped w))
      rw [hserve] at hr
      simp only at hr
      subst hr
      obtain ⟨hok, hempty, hdis'⟩ := drain_returns n (Q.popped w)
        (by rw [hrest]; exact Nat.lt_of_succ_lt_succ hn) (by rw [hrest]; exact hothers)
      rw [hdrain, Outcome.andThen_ok]
      refine ⟨hok, hempty, ?_⟩
      rw [Outcome.after, Event.dispatched_append, hdis, hdis', hrest, List.singleton_append]

/-- More rounds than there are commands make no difference. -/
theorem drain_of_lt : ∀ (n m : ℕ) (w : σ), (Q.commands w).length < n →
    (Q.commands w).length < m → (drain Q H n).run w = (drain Q H m).run w
  | 0, _, _, hn, _ => absurd hn (Nat.not_lt_zero _)
  | _, 0, _, _, hm => absurd hm (Nat.not_lt_zero _)
  | n + 1, m + 1, w, hn, hm => by
    cases hq : Q.commands w with
    | nil => rw [drain_of_nil hq, drain_of_nil hq]
    | cons cmd rest =>
      obtain ⟨es, r, -, -, -, hdrain⟩ := drain_round hH hq
      rw [hdrain, hdrain]
      cases r with
      | error e => rfl
      | ok _ =>
        have hrest := commands_popped hq
        rw [hq, ← hrest] at hn hm
        rw [Outcome.andThen_ok, Outcome.andThen_ok, drain_of_lt n m (Q.popped w)
          (Nat.lt_of_succ_lt_succ hn) (Nat.lt_of_succ_lt_succ hm)]

end Drain

section DrainQueue

variable {cfg : SatelliteConfig} {H : CommandHandler (MainState cfg)}
  (hH : ∀ cmd, Harmless (H.dispatch cmd))

include hH

theorem drain_state : ∀ (n : ℕ) (s : MainState cfg),
    ∃ q, ((drain (mainQueue cfg) H n).run s).state = { s with cmd_queue := q }
  | 0, s => ⟨s.cmd_queue, rfl⟩
  | n + 1, s => by
    cases hq : (mainQueue cfg).commands s with
    | nil =>
      rw [drain_of_nil hq]
      exact ⟨s.cmd_queue, rfl⟩
    | cons cmd rest =>
      obtain ⟨es, r, -, -, -, hdrain⟩ := drain_round hH hq
      rw [hdrain]
      cases r with
      | error e => exact ⟨_, rfl⟩
      | ok _ => exact drain_state n ((mainQueue cfg).popped s)

/-- The drain of `main` writes the queue only, and hands out no frame. -/
theorem drainQueue_run (s : MainState cfg) :
    (∃ q, ((drainQueue H).run s).state = { s with cmd_queue := q }) ∧
      Event.enqueued ((drainQueue H).run s).events = [] :=
  ⟨drain_state hH _ s, drain_enqueued hH _ s⟩

/-- With callbacks that return, it dispatches the queue in order and leaves it empty. -/
theorem drainQueue_returns {s : MainState cfg}
    (hs : ∀ cmd ∈ s.cmd_queue.m_queue, ∀ w, ∃ r, ((H.dispatch cmd).run w).result = .ok r) :
    ((drainQueue H).run s).result = .ok ⟨⟩ ∧
      ((drainQueue H).run s).state.cmd_queue.m_queue = [] ∧
      Event.dispatched ((drainQueue H).run s).events = s.cmd_queue.m_queue :=
  drain_returns (Q := mainQueue cfg) hH _ s (Nat.lt_succ_self _) hs

end DrainQueue

end Main

end Obcsw
