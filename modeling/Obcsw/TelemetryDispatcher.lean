import Obcsw.Effects
import Obcsw.TelemetrySerializer

/-!
# TelemetryDispatcher

The sequential parts of `TelemetryDispatcher` : `enqueue`, `sendUdp` and one round of the
drain loop, which pops a frame, serializes it, sends it and counts it. `inet_pton` and
`sendto` are calls into the system, and `SocketCalls` is what they return.

The counters are `std::atomic<uint64_t>`; the fields count in `ℕ` and `framesSent` and
`framesDropped` read 64 bits of them.

`completes_iff` : the round that pops a frame completes, whatever the sockets do, exactly
when the `satellite_id` of the frame is valid UTF-8.
-/

open Exceptions Program

namespace Obcsw

structure DispatcherConfig where
  dest_ip : Bytes := bytes "127.0.0.1"
  dest_port : UInt16 := 5005
  dispatch_interval_ms : UInt32 := 1000
  max_queue_depth : UInt32 := 64

/-- The members of a dispatcher that `enqueue`, `start`, `stop` and the loop share. -/
structure Dispatcher where
  m_queue : List TelemetryFrame := []
  m_running : Bool := false
  m_sock_fd : ℤ := -1
  m_frames_sent : ℕ := 0
  m_frames_dropped : ℕ := 0

namespace Dispatcher

def framesSent (d : Dispatcher) : UInt64 :=
  UInt64.ofNat d.m_frames_sent

def framesDropped (d : Dispatcher) : UInt64 :=
  UInt64.ofNat d.m_frames_dropped

/-- Enqueue a frame; false, and counted as dropped, when the queue is full. -/
def enqueue (cfg : DispatcherConfig) (d : Dispatcher) (frame : TelemetryFrame) :
    Bool × Dispatcher :=
  if d.m_queue.length ≥ cfg.max_queue_depth.toNat then
    (false, { d with m_frames_dropped := d.m_frames_dropped + 1 })
  else (true, { d with m_queue := d.m_queue ++ [frame] })

end Dispatcher

/-- What the calls of one `sendUdp` return. -/
structure SocketCalls where
  inet_pton : ℤ
  sendto : ℤ

/-- Whether the datagram went out whole. -/
def SocketCalls.delivered (net : SocketCalls) (payload : Bytes) : Bool :=
  decide (net.inet_pton = 1) && decide (net.sendto = payload.length)

namespace TelemetryDispatcher

/-- Send one datagram. -/
def sendUdp {σ : Type} (cfg : DispatcherConfig) (net : SocketCalls) (payload : Bytes) :
    Obc σ Bool := do
  if net.inet_pton ≠ 1 then
    emit (.cerr (bytes "[TelemetryDispatcher] Invalid IP: " ++ cfg.dest_ip ++ bytes "\n"))
    return false
  return decide (net.sendto = payload.length)

/-- Count a frame and report a failure. -/
def count (frame : TelemetryFrame) (sent : Bool) : Obc Dispatcher PUnit := do
  if sent then
    update fun d => { d with m_frames_sent := d.m_frames_sent + 1 }
  else
    update fun d => { d with m_frames_dropped := d.m_frames_dropped + 1 }
    emit (.cerr (bytes ("[TelemetryDispatcher] UDP send failed for frame "
      ++ toString frame.frame_id.toNat ++ "\n")))

/-- One round of the drain loop; false when the queue is empty and the loop breaks. -/
def drainRound (L : JsonLibrary) (cfg : DispatcherConfig) (net : SocketCalls) :
    Obc Dispatcher Bool := do
  let d ← getState
  match d.m_queue with
  | [] => return false
  | frame :: rest =>
    update fun d => { d with m_queue := rest }
    let payload ← ofExcept (TelemetrySerializer.toJson L frame)
    count frame (← sendUdp cfg net payload)
    return true

/-! ## One round -/

section Round

variable (cfg : DispatcherConfig) (net : SocketCalls)

theorem sendUdp_returns {σ : Type} (payload : Bytes) (s : σ) :
    ∃ es, (sendUdp cfg net payload).Returns s es (net.delivered payload) s := by
  unfold sendUdp SocketCalls.delivered
  by_cases h : net.inet_pton = 1
  · exact ⟨[], by simp [Prog.Returns, h]⟩
  · exact ⟨_, by simp [Prog.Returns, h]; rfl⟩

/-- The dispatcher with one more frame counted. -/
def counted (d : Dispatcher) (sent : Bool) : Dispatcher :=
  if sent then { d with m_frames_sent := d.m_frames_sent + 1 }
  else { d with m_frames_dropped := d.m_frames_dropped + 1 }

theorem count_returns (frame : TelemetryFrame) (sent : Bool) (d : Dispatcher) :
    ∃ es, (count frame sent).Returns d es ⟨⟩ (counted d sent) := by
  cases sent with
  | true => exact ⟨[], rfl⟩
  | false => exact ⟨_, rfl⟩

variable {L : JsonLibrary} {frame : TelemetryFrame} {d : Dispatcher} {rest : List TelemetryFrame}

/-- A frame that serializes is sent and counted. -/
theorem drainRound_of_ok {payload : Bytes} (hq : d.m_queue = frame :: rest)
    (hp : TelemetrySerializer.toJson L frame = .ok payload) :
    ∃ es, (drainRound L cfg net).Returns d es true
      (counted { d with m_queue := rest } (net.delivered payload)) := by
  obtain ⟨es, hsend⟩ := sendUdp_returns cfg net payload { d with m_queue := rest }
  obtain ⟨es', hcount⟩ := count_returns frame (net.delivered payload) { d with m_queue := rest }
  refine ⟨es ++ es', ?_⟩
  unfold Prog.Returns at *
  simp [drainRound, hq, hp, hsend, hcount]

/-- A frame that does not serialize takes the round down; it is popped and counted nowhere. -/
theorem drainRound_of_error {e : CppException} (hq : d.m_queue = frame :: rest)
    (hp : TelemetrySerializer.toJson L frame = .error e) :
    (drainRound L cfg net).Throws d [] e { d with m_queue := rest } := by
  unfold Prog.Throws
  simp [drainRound, hq, hp]

/-- A round on an empty queue breaks. -/
theorem drainRound_of_nil (hq : d.m_queue = []) :
    (drainRound L cfg net).Returns d [] false d := by
  unfold Prog.Returns
  simp [drainRound, hq]

end Round

/-- The round that pops the frame completes, for all outcomes of the socket calls, and
increments exactly one of the two counters. -/
def Completes (L : JsonLibrary) (cfg : DispatcherConfig) (frame : TelemetryFrame) : Prop :=
  ∀ (net : SocketCalls) (d : Dispatcher) (rest : List TelemetryFrame), d.m_queue = frame :: rest →
    ∃ es d', (drainRound L cfg net).Returns d es true d' ∧ d'.m_queue = rest ∧
      ((d'.m_frames_sent = d.m_frames_sent + 1 ∧ d'.m_frames_dropped = d.m_frames_dropped) ∨
        (d'.m_frames_sent = d.m_frames_sent ∧ d'.m_frames_dropped = d.m_frames_dropped + 1))

/-- A round completes exactly on the frames whose `satellite_id` is valid UTF-8. -/
theorem completes_iff {L : JsonLibrary} (hL : L.Lawful) (cfg : DispatcherConfig)
    (frame : TelemetryFrame) : Completes L cfg frame ↔ validUtf8 frame.satellite_id = true := by
  constructor
  · intro h
    by_contra hv
    obtain ⟨e, he⟩ := (TelemetrySerializer.toJson_error_iff hL frame).mpr (by simpa using hv)
    obtain ⟨es, d', hret, -⟩ := h ⟨1, 0⟩ { m_queue := [frame] } [] rfl
    have hthrow := drainRound_of_error (d := { m_queue := [frame] }) cfg ⟨1, 0⟩ rfl he
    rw [Prog.Returns, hthrow] at hret
    cases hret
  · intro hv net d rest hq
    obtain ⟨payload, hp⟩ := (TelemetrySerializer.toJson_ok_iff hL frame).mpr hv
    obtain ⟨es, hret⟩ := drainRound_of_ok cfg net hq hp
    refine ⟨es, _, hret, ?_⟩
    cases net.delivered payload with
    | true => exact ⟨rfl, Or.inl ⟨rfl, rfl⟩⟩
    | false => exact ⟨rfl, Or.inr ⟨rfl, rfl⟩⟩

open TelemetrySerializer (nominalFrame nominalLibrary nominalLibrary_lawful)

theorem completes_nominalFrame : Completes nominalLibrary {} nominalFrame :=
  (completes_iff nominalLibrary_lawful {} nominalFrame).mpr (by decide)

/-- A frame whose `satellite_id` is the byte `FF`. -/
def unencodableFrame : TelemetryFrame :=
  { nominalFrame with satellite_id := [0xFF] }

/-- `enqueue` accepts the frame, and the round that pops it throws. -/
theorem not_completes_unencodableFrame :
    (Dispatcher.enqueue {} {} unencodableFrame).1 = true ∧
      ¬Completes nominalLibrary {} unencodableFrame := by
  refine ⟨by decide, fun h => ?_⟩
  obtain ⟨e, he⟩ := (TelemetrySerializer.toJson_error_iff nominalLibrary_lawful
    unencodableFrame).mpr (by decide)
  obtain ⟨es, d', hret, -⟩ := h ⟨1, 0⟩ { m_queue := [unencodableFrame] } [] rfl
  rw [Prog.Returns, drainRound_of_error {} ⟨1, 0⟩ rfl he] at hret
  cases hret

end TelemetryDispatcher

end Obcsw
