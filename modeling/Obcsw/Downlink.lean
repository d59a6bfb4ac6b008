import Obcsw.TelemetryDispatcher
import Obcsw.Transitions

/-!
# Downlink

`TelemetryDispatcher` with its threads. Any number of threads call `enqueue`, one control
thread calls `start` and `stop`, and every thread that `start` creates runs `dispatchLoop`.
A label of `next` is one step of one thread; what is done with `m_queue_mutex` held is one
step, and so is each access to an atomic and each call into the system. The scheduler
chooses what the system answers : the descriptor `socket` returns, whether the thread is
created, and the outcome of `inet_pton` and `sendto`.

A frame that does not serialize makes `toJson` throw out of the thread function, which
terminates the process; nothing steps after that.

`log` is a ghost record of what has happened.
-/

set_option linter.unusedSectionVars false

open Exceptions

namespace Obcsw

namespace Downlink

/-! ## The threads -/

/-- What a step shows. -/
inductive Effect
  /-- `enqueue` returned true. -/
  | accepted (frame : TelemetryFrame)
  /-- `enqueue` returned false. -/
  | rejected (frame : TelemetryFrame)
  /-- A loop popped the frame. -/
  | popped (frame : TelemetryFrame)
  /-- A loop called `sendUdp` for the frame, with this descriptor in `m_sock_fd`. -/
  | handed (fd : ℤ) (frame : TelemetryFrame) (payload : Bytes)
  /-- A loop incremented `m_frames_sent`, or `m_frames_dropped`. -/
  | counted (sent : Bool)
  /-- `start` opened a descriptor. -/
  | opened (fd : ℤ)
  /-- `stop` closed a descriptor. -/
  | closed (fd : ℤ)
  | startReturned
  | startThrew (e : CppException)
  | stopReturned

/-- Where a `dispatchLoop` stands. -/
inductive LoopPc
  /-- About to read `m_running`. -/
  | check
  /-- In `sleep_for`. -/
  | sleeping
  /-- About to lock the queue and pop, or break. -/
  | draining
  /-- Holds a popped frame, about to serialize it. -/
  | serializing (frame : TelemetryFrame)
  /-- About to call `sendUdp`. -/
  | sending (frame : TelemetryFrame) (payload : Bytes)
  /-- About to count the frame. -/
  | counting (frame : TelemetryFrame) (sent : Bool)
  /-- Returned. -/
  | exited
  deriving DecidableEq

namespace LoopPc

/-- The frame popped and not yet counted. -/
def uncounted : LoopPc → List TelemetryFrame
  | serializing frame | sending frame _ | counting frame _ => [frame]
  | _ => []

/-- The frame popped and not yet handed to `sendUdp`. -/
def unhanded : LoopPc → List TelemetryFrame
  | serializing frame | sending frame _ => [frame]
  | _ => []

end LoopPc

/-- Where the control thread stands. -/
inductive ControlPc
  /-- Outside `start` and `stop`. -/
  | idle
  /-- In `start`, about to read `m_running`. -/
  | starting
  /-- About to call `socket`. -/
  | opening
  /-- About to set `m_running`. -/
  | raising
  /-- About to create the thread. -/
  | spawning
  /-- In `stop`, about to read `m_running`. -/
  | stopping
  /-- About to clear `m_running`. -/
  | clearing
  /-- About to join the thread. -/
  | joining
  /-- About to close the descriptor. -/
  | closing
  deriving DecidableEq

/-- The dispatcher and its threads. -/
structure State (Tid : Type) where
  dispatcher : Dispatcher := {}
  /-- The loop attached to `m_thread`; none when it is not joinable. -/
  m_thread : Option ℕ := none
  spawned : ℕ := 0
  loops : ℕ → LoopPc := fun _ => .exited
  control : ControlPc := .idle
  /-- The frame a thread has called `enqueue` with. -/
  callers : Tid → Option TelemetryFrame := fun _ => none
  terminated : Bool := false
  log : List Effect := []

/-- A step of one thread, with what the system answers. -/
inductive Label (Tid : Type)
  /-- Thread `t` calls `enqueue`. -/
  | call (t : Tid) (frame : TelemetryFrame)
  /-- `enqueue` of thread `t` locks, runs and returns. -/
  | enqueue (t : Tid)
  /-- The control thread calls `start`. -/
  | start
  /-- The control thread calls `stop`. -/
  | stop
  /-- The control thread goes on without a call into the system. -/
  | control
  /-- `socket` returns. -/
  | socket (fd : ℤ)
  /-- The `std::thread` constructor creates a thread or throws. -/
  | spawn (created : Bool)
  /-- Loop `i` goes on without a call into the system. -/
  | loop (i : ℕ)
  /-- `sendUdp` of loop `i` returns. -/
  | send (i : ℕ) (net : SocketCalls)

section Threads

variable {Tid : Type} [DecidableEq Tid]

namespace State

variable (s : State Tid)

/-- Record what a step shows. -/
def record (es : List Effect) : State Tid :=
  { s with log := s.log ++ es }

def toControl (c : ControlPc) : State Tid :=
  { s with control := c }

def toLoop (i : ℕ) (c : LoopPc) : State Tid :=
  { s with loops := Function.update s.loops i c }

end State

/-- The exception of a failed `socket`. -/
def socketFailed : CppException :=
  runtime_error "TelemetryDispatcher: failed to create UDP socket"

/-- The exception of the `std::thread` constructor. -/
def threadFailed : CppException :=
  ⟨.system_error, "Resource temporarily unavailable"⟩

/-- The control thread goes on. -/
def controlStep (s : State Tid) : Option (State Tid) :=
  match s.control with
  | .starting =>
    if s.dispatcher.m_running then some ((s.toControl .idle).record [.startReturned])
    else some (s.toControl .opening)
  | .raising =>
    some ({ s with dispatcher := { s.dispatcher with m_running := true } }.toControl .spawning)
  | .stopping =>
    if s.dispatcher.m_running then some (s.toControl .clearing)
    else some ((s.toControl .idle).record [.stopReturned])
  | .clearing =>
    some ({ s with dispatcher := { s.dispatcher with m_running := false } }.toControl .joining)
  | .joining =>
    match s.m_thread with
    | none => some (s.toControl .closing)
    | some i =>
      match s.loops i with
      | .exited => some ({ s with m_thread := none }.toControl .closing)
      | _ => none
  | .closing =>
    if s.dispatcher.m_sock_fd ≥ 0 then
      some (({ s with dispatcher := { s.dispatcher with m_sock_fd := -1 } }.toControl .idle).record
        [.closed s.dispatcher.m_sock_fd, .stopReturned])
    else some ((s.toControl .idle).record [.stopReturned])
  | _ => none

/-- `socket` returns `fd` to `start`. -/
def socketStep (s : State Tid) (fd : ℤ) : Option (State Tid) :=
  match s.control with
  | .opening =>
    let s := { s with dispatcher := { s.dispatcher with m_sock_fd := fd } }
    if fd < 0 then some ((s.toControl .idle).record [.startThrew socketFailed])
    else some ((s.toControl .raising).record [.opened fd])
  | _ => none

/-- `start` creates the thread and assigns it to `m_thread`, or throws. Assigning to a
joinable `std::thread` terminates the process. -/
def spawnStep (s : State Tid) (created : Bool) : Option (State Tid) :=
  match s.control, created with
  | .spawning, false => some ((s.toControl .idle).record [.startThrew threadFailed])
  | .spawning, true =>
    match s.m_thread with
    | some _ => some { s with terminated := true }
    | none =>
      some ((({ s with m_thread := some s.spawned, spawned := s.spawned + 1 }.toLoop s.spawned
        .check).toControl .idle).record [.startReturned])
  | _, _ => none

/-- Loop `i` goes on. -/
def loopStep (L : JsonLibrary) (s : State Tid) (i : ℕ) : Option (State Tid) :=
  match s.loops i with
  | .check => some (s.toLoop i (if s.dispatcher.m_running then .sleeping else .exited))
  | .sleeping => some (s.toLoop i .draining)
  | .draining =>
    match s.dispatcher.m_queue with
    | [] => some (s.toLoop i .check)
    | frame :: rest =>
      some (({ s with dispatcher := { s.dispatcher with m_queue := rest } }.toLoop i
        (.serializing frame)).record [.popped frame])
  | .serializing frame =>
    match TelemetrySerializer.toJson L frame with
    | .ok payload => some (s.toLoop i (.sending frame payload))
    | .error _ => some { s with terminated := true }
  | .counting _ sent =>
    some (({ s with dispatcher := TelemetryDispatcher.counted s.dispatcher sent }.toLoop i
      .draining).record [.counted sent])
  | _ => none

/-- `sendUdp` of loop `i` returns. -/
def sendStep (s : State Tid) (i : ℕ) (net : SocketCalls) : Option (State Tid) :=
  match s.loops i with
  | .sending frame payload =>
    some ((s.toLoop i (.counting frame (net.delivered payload))).record
      [.handed s.dispatcher.m_sock_fd frame payload])
  | _ => none

/-- `enqueue` of thread `t` runs and returns. -/
def enqueueStep (cfg : DispatcherConfig) (s : State Tid) (t : Tid) : Option (State Tid) :=
  match s.callers t with
  | none => none
  | some frame =>
    let r := s.dispatcher.enqueue cfg frame
    some ({ s with dispatcher := r.2, callers := Function.update s.callers t none }.record
      [if r.1 then .accepted frame else .rejected frame])

/-- One step of one thread; none when the thread cannot do that. -/
def next (L : JsonLibrary) (cfg : DispatcherConfig) (s : State Tid) (l : Label Tid) :
    Option (State Tid) :=
  if s.terminated then none
  else match l with
    | .call t frame =>
      match s.callers t with
      | none => some { s with callers := Function.update s.callers t (some frame) }
      | some _ => none
    | .enqueue t => enqueueStep cfg s t
    | .start => if s.control = .idle then some (s.toControl .starting) else none
    | .stop => if s.control = .idle then some (s.toControl .stopping) else none
    | .control => controlStep s
    | .socket fd => socketStep s fd
    | .spawn created => spawnStep s created
    | .loop i => loopStep L s i
    | .send i net => sendStep s i net

/-- The threads on a new dispatcher. -/
def system (Tid : Type) [DecidableEq Tid] (L : JsonLibrary) (cfg : DispatcherConfig) :
    Transitions (State Tid) (Label Tid) :=
  .ofPartial {} (next L cfg)

/-! ## What one step does -/

section Steps

variable (L : JsonLibrary) (cfg : DispatcherConfig)

/-- Everything a step can do. -/
inductive Step (s : State Tid) : Label Tid → State Tid → Prop
  | call (t : Tid) (frame : TelemetryFrame) (h : s.callers t = none) :
      Step s (.call t frame) { s with callers := Function.update s.callers t (some frame) }
  | enqueue (t : Tid) (frame : TelemetryFrame) (h : s.callers t = some frame) :
      Step s (.enqueue t) ({ s with
        dispatcher := (s.dispatcher.enqueue cfg frame).2
        callers := Function.update s.callers t none }.record
          [if (s.dispatcher.enqueue cfg frame).1 then .accepted frame else .rejected frame])
  | start (h : s.control = .idle) : Step s .start (s.toControl .starting)
  | startRunning (h : s.control = .starting) (hrun : s.dispatcher.m_running = true) :
      Step s .control ((s.toControl .idle).record [.startReturned])
  | startStopped (h : s.control = .starting) (hrun : s.dispatcher.m_running = false) :
      Step s .control (s.toControl .opening)
  | socketFails (fd : ℤ) (h : s.control = .opening) (hfd : fd < 0) :
      Step s (.socket fd) (({ s with dispatcher := { s.dispatcher with m_sock_fd := fd } }.toControl
        .idle).record [.startThrew socketFailed])
  | socket (fd : ℤ) (h : s.control = .opening) (hfd : 0 ≤ fd) :
      Step s (.socket fd) (({ s with dispatcher := { s.dispatcher with m_sock_fd := fd } }.toControl
        .raising).record [.opened fd])
  | raise (h : s.control = .raising) :
      Step s .control
        ({ s with dispatcher := { s.dispatcher with m_running := true } }.toControl .spawning)
  | spawnFails (h : s.control = .spawning) :
      Step s (.spawn false) ((s.toControl .idle).record [.startThrew threadFailed])
  | spawnJoinable (i : ℕ) (h : s.control = .spawning) (hthread : s.m_thread = some i) :
      Step s (.spawn true) { s with terminated := true }
  | spawn (h : s.control = .spawning) (hthread : s.m_thread = none) :
      Step s (.spawn true) ((({ s with
        m_thread := some s.spawned
        spawned := s.spawned + 1 }.toLoop s.spawned .check).toControl .idle).record
          [.startReturned])
  | stop (h : s.control = .idle) : Step s .stop (s.toControl .stopping)
  | stopStopped (h : s.control = .stopping) (hrun : s.dispatcher.m_running = false) :
      Step s .control ((s.toControl .idle).record [.stopReturned])
  | stopRunning (h : s.control = .stopping) (hrun : s.dispatcher.m_running = true) :
      Step s .control (s.toControl .clearing)
  | clear (h : s.control = .clearing) :
      Step s .control
        ({ s with dispatcher := { s.dispatcher with m_running := false } }.toControl .joining)
  | joinNone (h : s.control = .joining) (hthread : s.m_thread = none) :
      Step s .control (s.toControl .closing)
  | join (i : ℕ) (h : s.control = .joining) (hthread : s.m_thread = some i)
      (hloop : s.loops i = .exited) :
      Step s .control ({ s with m_thread := none }.toControl .closing)
  | close (h : s.control = .closing) (hfd : 0 ≤ s.dispatcher.m_sock_fd) :
      Step s .control (({ s with dispatcher := { s.dispatcher with m_sock_fd := -1 } }.toControl
        .idle).record [.closed s.dispatcher.m_sock_fd, .stopReturned])
  | closeNone (h : s.control = .closing) (hfd : s.dispatcher.m_sock_fd < 0) :
      Step s .control ((s.toControl .idle).record [.stopReturned])
  | check (i : ℕ) (h : s.loops i = .check) :
      Step s (.loop i) (s.toLoop i (if s.dispatcher.m_running then .sleeping else .exited))
  | sleep (i : ℕ) (h : s.loops i = .sleeping) : Step s (.loop i) (s.toLoop i .draining)
  | drained (i : ℕ) (h : s.loops i = .draining) (hq : s.dispatcher.m_queue = []) :
      Step s (.loop i) (s.toLoop i .check)
  | pop (i : ℕ) (frame : TelemetryFrame) (rest : List TelemetryFrame) (h : s.loops i = .draining)
      (hq : s.dispatcher.m_queue = frame :: rest) :
      Step s (.loop i) (({ s with dispatcher := { s.dispatcher with m_queue := rest } }.toLoop i
        (.serializing frame)).record [.popped frame])
  | serialize (i : ℕ) (frame : TelemetryFrame) (payload : Bytes)
      (h : s.loops i = .serializing frame)
      (hok : TelemetrySerializer.toJson L frame = .ok payload) :
      Step s (.loop i) (s.toLoop i (.sending frame payload))
  | serializeThrows (i : ℕ) (frame : TelemetryFrame) (e : CppException)
      (h : s.loops i = .serializing frame)
      (herr : TelemetrySerializer.toJson L frame = .error e) :
      Step s (.loop i) { s with terminated := true }
  | send (i : ℕ) (net : SocketCalls) (frame : TelemetryFrame) (payload : Bytes)
      (h : s.loops i = .sending frame payload) :
      Step s (.send i net) ((s.toLoop i (.counting frame (net.delivered payload))).record
        [.handed s.dispatcher.m_sock_fd frame payload])
  | count (i : ℕ) (frame : TelemetryFrame) (sent : Bool) (h : s.loops i = .counting frame sent) :
      Step s (.loop i) (({ s with
        dispatcher := TelemetryDispatcher.counted s.dispatcher sent }.toLoop i .draining).record
          [.counted sent])

variable {L cfg} {s s' : State Tid}

theorem step_of_controlStep (h : controlStep s = some s') : Step L cfg s .control s' := by
  unfold controlStep at h
  split at h
  · next hc =>
    split at h
    · next hrun => obtain rfl := Option.some.inj h; exact .startRunning hc hrun
    · next hrun =>
      obtain rfl := Option.some.inj h
      exact .startStopped hc (Bool.eq_false_iff.mpr hrun)
  · next hc => obtain rfl := Option.some.inj h; exact .raise hc
  · next hc =>
    split at h
    · next hrun => obtain rfl := Option.some.inj h; exact .stopRunning hc hrun
    · next hrun =>
      obtain rfl := Option.some.inj h
      exact .stopStopped hc (Bool.eq_false_iff.mpr hrun)
  · next hc => obtain rfl := Option.some.inj h; exact .clear hc
  · next hc =>
    split at h
    · next ht => obtain rfl := Option.some.inj h; exact .joinNone hc ht
    · next i ht =>
      split at h
      · next hl => obtain rfl := Option.some.inj h; exact .join i hc ht hl
      · cases h
  · next hc =>
    split at h
    · next hfd => obtain rfl := Option.some.inj h; exact .close hc hfd
    · next hfd => obtain rfl := Option.some.inj h; exact .closeNone hc (not_le.mp hfd)
  · cases h

theorem step_of_socketStep {fd : ℤ} (h : socketStep s fd = some s') :
    Step L cfg s (.socket fd) s' := by
  unfold socketStep at h
  split at h
  · next hc =>
    simp only at h
    split at h
    · next hfd => obtain rfl := Option.some.inj h; exact .socketFails fd hc hfd
    · next hfd => obtain rfl := Option.some.inj h; exact .socket fd hc (not_lt.mp hfd)
  · cases h

theorem step_of_spawnStep {created : Bool} (h : spawnStep s created = some s') :
    Step L cfg s (.spawn created) s' := by
  unfold spawnStep at h
  split at h
  · next hc => obtain rfl := Option.some.inj h; exact .spawnFails hc
  · next hc =>
    split at h
    · next i ht => obtain rfl := Option.some.inj h; exact .spawnJoinable i hc ht
    · next ht => obtain rfl := Option.some.inj h; exact .spawn hc ht
  · cases h

theorem step_of_loopStep {i : ℕ} (h : loopStep L s i = some s') : Step L cfg s (.loop i) s' := by
  unfold loopStep at h
  split at h
  · next hc => obtain rfl := Option.some.inj h; exact .check i hc
  · next hc => obtain rfl := Option.some.inj h; exact .sleep i hc
  · next hc =>
    split at h
    · next hq => obtain rfl := Option.some.inj h; exact .drained i hc hq
    · next frame rest hq => obtain rfl := Option.some.inj h; exact .pop i frame rest hc hq
  · next frame hc =>
    split at h
    · next payload hp => obtain rfl := Option.some.inj h; exact .serialize i frame payload hc hp
    · next e hp => obtain rfl := Option.some.inj h; exact .serializeThrows i frame e hc hp
  · next frame sent hc => obtain rfl := Option.some.inj h; exact .count i frame sent hc
  · cases h

theorem step_of_next {l : Label Tid} (h : next L cfg s l = some s') :
    s.terminated = false ∧ Step L cfg s l s' := by
  unfold next at h
  split at h
  · cases h
  · next hterm =>
    refine ⟨Bool.eq_false_iff.mpr hterm, ?_⟩
    cases l with
    | call t frame =>
      simp only at h
      split at h
      · next hc => obtain rfl := Option.some.inj h; exact .call t frame hc
      · cases h
    | enqueue t =>
      simp only [enqueueStep] at h
      split at h
      · cases h
      · next frame hc => obtain rfl := Option.some.inj h; exact .enqueue t frame hc
    | start =>
      simp only at h
      split at h
      · next hc => obtain rfl := Option.some.inj h; exact .start hc
      · cases h
    | stop =>
      simp only at h
      split at h
      · next hc => obtain rfl := Option.some.inj h; exact .stop hc
      · cases h
    | control => exact step_of_controlStep h
    | socket fd => exact step_of_socketStep h
    | spawn created => exact step_of_spawnStep h
    | loop i => exact step_of_loopStep h
    | send i net =>
      simp only [sendStep] at h
      split at h
      · next frame payload hc =>
        obtain rfl := Option.some.inj h
        exact .send i net frame payload hc
      · cases h

end Steps

/-! ## Rounds

Left alone, a loop that is about to drain goes through `drainRound`. -/

section Rounds

open TelemetryDispatcher (drainRound drainRound_of_ok drainRound_of_error drainRound_of_nil)
open Transitions (exec)

variable {L : JsonLibrary} {s : State Tid} {i : ℕ} {frame : TelemetryFrame}
  {rest : List TelemetryFrame} (cfg : DispatcherConfig) (net : SocketCalls)
  (hterm : s.terminated = false) (hi : s.loops i = .draining)

include hterm hi

/-- A frame that serializes takes the loop through a round and back. -/
theorem round_of_ok {payload : Bytes} (hq : s.dispatcher.m_queue = frame :: rest)
    (hp : TelemetrySerializer.toJson L frame = .ok payload) :
    ∃ s' es, exec (next L cfg) s [.loop i, .loop i, .send i net, .loop i] = some s' ∧
      s'.loops i = .draining ∧
      (drainRound L cfg net).Returns s.dispatcher es true s'.dispatcher := by
  have hround := drainRound_of_ok cfg net hq hp
  simpa [exec, next, loopStep, sendStep, State.record, State.toLoop, hterm, hi, hq, hp]
    using hround

/-- A frame that does not serialize ends the process in the middle of the round. -/
theorem round_of_error {e : CppException} (hq : s.dispatcher.m_queue = frame :: rest)
    (hp : TelemetrySerializer.toJson L frame = .error e) :
    ∃ s', exec (next L cfg) s [.loop i, .loop i] = some s' ∧ s'.terminated = true ∧
      (drainRound L cfg net).Throws s.dispatcher [] e s'.dispatcher := by
  have hround := drainRound_of_error cfg net hq hp
  simpa [exec, next, loopStep, State.record, State.toLoop, hterm, hi, hq, hp] using hround

/-- An empty queue sends the loop back to its check. -/
theorem round_of_nil (hq : s.dispatcher.m_queue = []) :
    ∃ s', exec (next L cfg) s [.loop i] = some s' ∧ s'.loops i = .check ∧
      (drainRound L cfg net).Returns s.dispatcher [] false s'.dispatcher := by
  refine ⟨s.toLoop i .check, ?_, Function.update_self .., drainRound_of_nil cfg net hq⟩
  simp [exec, next, loopStep, hterm, hi, hq]

end Rounds

end Threads

end Downlink

end Obcsw
