import Obcsw.BoundedFifo
import Obcsw.Conservation

/-!
# The telemetry queue

The queue of the dispatcher, between the threads that call `enqueue` and the loops that pop,
over any number of starts and stops, is a bounded FIFO queue of capacity `max_queue_depth`
(`refines_fifo`). So the log decides every answer : a frame is refused exactly when
`max_queue_depth` more frames have been accepted than popped, and from a moment at which the
queue is empty at least `max_queue_depth` frames are accepted before one is refused.
-/

set_option linter.unusedSectionVars false

open BoundedFifo (Applies fifo accepted taken run_put_iff run_take)
open Transitions (Refines)

namespace Obcsw

namespace Downlink

/-- The operations on the queue among some effects. -/
def queueEvents (es : List Effect) : List (BoundedFifo.Event TelemetryFrame) :=
  es.filterMap fun
    | .accepted frame => some (.put frame true)
    | .rejected frame => some (.put frame false)
    | .popped frame => some (.take (some frame))
    | _ => none

section Log

variable (es es' : List Effect)

@[simp] theorem queueEvents_append : queueEvents (es ++ es') = queueEvents es ++ queueEvents es' :=
  List.filterMap_append

theorem accepted_queueEvents : accepted (queueEvents es) = acceptedFrames es := by
  rw [accepted, queueEvents, acceptedFrames, List.filterMap_filterMap]
  refine List.filterMap_congr fun e _ => ?_
  cases e <;> rfl

theorem taken_queueEvents : taken (queueEvents es) = poppedFrames es := by
  rw [taken, queueEvents, poppedFrames, List.filterMap_filterMap]
  refine List.filterMap_congr fun e _ => ?_
  cases e <;> rfl

variable {es}

theorem queueEvents_of_still (h : ∀ e ∈ es, e.movesFrame = false) : queueEvents es = [] := by
  refine List.filterMap_eq_nil_iff.mpr fun e he => ?_
  have hstill := h e he
  cases e <;> first | rfl | cases hstill

end Log

section Threads

variable {Tid : Type} [DecidableEq Tid] {L : JsonLibrary} {cfg : DispatcherConfig}

/-- A step shows `es`, and the queue goes through the operations among them. -/
def Operates (cfg : DispatcherConfig) (s s' : State Tid) (es : List Effect) : Prop :=
  s'.log = s.log ++ es ∧ (fifo TelemetryFrame cfg.max_queue_depth.toNat).Run
    s.dispatcher.m_queue (queueEvents es) s'.dispatcher.m_queue

theorem operates_still {s s' : State Tid} {es : List Effect} (hlog : s'.log = s.log ++ es)
    (hq : s'.dispatcher.m_queue = s.dispatcher.m_queue) (h : ∀ e ∈ es, e.movesFrame = false) :
    Operates cfg s s' es := by
  refine ⟨hlog, ?_⟩
  rw [queueEvents_of_still h, hq]
  exact .nil _

/-- `enqueue` is the `put` of the queue. -/
theorem applies_enqueue (d : Dispatcher) (frame : TelemetryFrame) :
    Applies cfg.max_queue_depth.toNat d.m_queue (.put frame (d.enqueue cfg frame).1)
      (d.enqueue cfg frame).2.m_queue := by
  rw [Applies.put_iff]
  unfold Dispatcher.enqueue
  split
  · next hfull => exact Or.inr ⟨hfull, rfl, rfl⟩
  · next hfull => exact Or.inl ⟨Nat.lt_of_not_ge hfull, rfl, rfl⟩

theorem operates_of_step {s s' : State Tid} {l : Label Tid} (h : Step L cfg s l s') :
    ∃ es, Operates cfg s s' es := by
  cases h with
  | enqueue t frame h =>
    refine ⟨_, rfl, ?_⟩
    have hput := @applies_enqueue cfg s.dispatcher frame
    revert hput
    cases (s.dispatcher.enqueue cfg frame).1 <;> exact fun hput => .single hput
  | pop i frame rest h hq =>
    exact ⟨_, rfl, .single (Applies.take_iff.mpr (Or.inr ⟨frame, rfl, hq⟩))⟩
  | count i frame sent h =>
    exact ⟨_, operates_still rfl (by cases sent <;> rfl) (by simp [Effect.movesFrame])⟩
  | send i net frame payload h => exact ⟨_, rfl, .nil _⟩
  | _ =>
    first
    | exact ⟨[], operates_still (List.append_nil _).symm rfl (by simp)⟩
    | exact ⟨_, operates_still rfl rfl (by simp [Effect.movesFrame])⟩

/-- The threads refine the bounded FIFO queue. -/
theorem refines_fifo : Refines (system Tid L cfg)
    (fifo TelemetryFrame cfg.max_queue_depth.toNat) (fun s => s.dispatcher.m_queue)
    (fun s => queueEvents s.log) where
  initial s hs := by
    obtain rfl : s = {} := hs
    exact ⟨rfl, rfl⟩
  step s l s' _ hstep := by
    obtain ⟨es, hlog, hrun⟩ := operates_of_step (step_of_next hstep).2
    exact ⟨queueEvents es, by rw [hlog, queueEvents_append], hrun⟩

/-! ## The order of the frames -/

/-- The frames handed to `sendUdp` come first among the accepted ones. -/
theorem handed_isPrefix {s : State Tid} (h : (system Tid L cfg).Reachable s) :
    List.IsPrefix (handedFrames s.log) (acceptedFrames s.log) := by
  have hinv := inv_reachable h
  rw [hinv.accepted, hinv.handed, List.append_assoc]
  exact List.prefix_append _ _

/-- The frame in the hands of a loop has been accepted. -/
theorem accepted_of_serializing (hr : (system Tid L cfg).Reachable s) {i : ℕ}
    {frame : TelemetryFrame} (h : s.loops i = .serializing frame) :
    frame ∈ acceptedFrames s.log := by
  have hinv := inv_reachable hr
  have hattached := hinv.attached i (by simp [h])
  have hhand : s.inHand LoopPc.unhanded = [frame] := by
    rw [State.inHand, hattached]
    simp only [h]
    rfl
  rw [hinv.accepted, hinv.handed, hhand]
  simp

/-- With no room in the queue, `enqueue` accepts nothing. -/
theorem accepted_of_zero (hr : (system Tid L cfg).Reachable s)
    (hdepth : cfg.max_queue_depth.toNat = 0) : acceptedFrames s.log = [] := by
  obtain ⟨q, -, hrun⟩ := refines_fifo.reachable hr
  rw [hdepth] at hrun
  rw [← accepted_queueEvents]
  exact BoundedFifo.run_accepted_of_zero hrun

/-! ## The result -/

/-- The log at `s` is a history of the bounded FIFO queue, which decides every answer. -/
structure Queues (cfg : DispatcherConfig) (s : State Tid) : Prop where
  history : (fifo TelemetryFrame cfg.max_queue_depth.toNat).Run [] (queueEvents s.log)
    s.dispatcher.m_queue
  /-- A refusal comes with `max_queue_depth` more frames accepted than popped. -/
  rejected : ∀ before frame after, s.log = before ++ .rejected frame :: after →
    (acceptedFrames before).length =
      (poppedFrames before).length + cfg.max_queue_depth.toNat
  /-- And no frame is accepted then. -/
  accepted : ∀ before frame after, s.log = before ++ .accepted frame :: after →
    (acceptedFrames before).length ≠
      (poppedFrames before).length + cfg.max_queue_depth.toNat
  /-- A popped frame is the first accepted one that has not been popped. -/
  popped : ∀ before frame after, s.log = before ++ .popped frame :: after →
    (acceptedFrames before)[(poppedFrames before).length]? = some frame
  /-- From a moment at which the queue is empty, `max_queue_depth` frames are accepted before
  one is refused. -/
  capacity : ∀ before between frame after,
    s.log = before ++ (between ++ .rejected frame :: after) →
    acceptedFrames before = poppedFrames before →
    cfg.max_queue_depth.toNat ≤ (acceptedFrames between).length

/-- The telemetry queue of every reachable state is a bounded FIFO queue. -/
theorem queues {s : State Tid} (h : (system Tid L cfg).Reachable s) : Queues cfg s := by
  obtain ⟨q, hq, hrun⟩ := refines_fifo.reachable h
  obtain rfl : q = [] := hq
  have hrejected : ∀ before frame after, s.log = before ++ .rejected frame :: after →
      (acceptedFrames before).length =
        (poppedFrames before).length + cfg.max_queue_depth.toNat := by
    intro before frame after hsplit
    have hput := hrun
    rw [hsplit, queueEvents_append] at hput
    have hfull := (@run_put_iff _ _ _ _ _ frame false hput).mp rfl
    rwa [accepted_queueEvents, taken_queueEvents] at hfull
  exact {
    history := hrun
    rejected := hrejected
    accepted := by
      intro before frame after hsplit hfull
      rw [hsplit, queueEvents_append] at hrun
      have hput := @run_put_iff _ _ _ _ _ frame true hrun
      rw [accepted_queueEvents, taken_queueEvents] at hput
      exact Bool.noConfusion (hput.mpr hfull)
    popped := by
      intro before frame after hsplit
      rw [hsplit, queueEvents_append] at hrun
      have htake := run_take hrun
      rwa [accepted_queueEvents, taken_queueEvents] at htake
    capacity := by
      intro before between frame after hsplit hempty
      have hfull := hrejected (before ++ between) frame after (by rw [hsplit, List.append_assoc])
      rw [acceptedFrames_append, poppedFrames_append, hempty, List.length_append,
        List.length_append] at hfull
      omega }

end Threads

/-- With room for one frame, the second of two is refused. -/
def refuseSecond : List (Label Unit) :=
  [.call () {}, .enqueue (), .call () {}, .enqueue ()]

def refusedSecond : State Unit :=
  (Transitions.exec (next (.ofText [] .null) { max_queue_depth := 1 }) {} refuseSecond).get
    (by decide)

theorem queues_refusedSecond : Queues { max_queue_depth := 1 } refusedSecond ∧
    queueEvents refusedSecond.log = [.put {} true, .put {} false] :=
  ⟨queues (L := .ofText [] .null)
    (Transitions.reachable_of_exec refuseSecond (Option.some_get _).symm), rfl⟩

end Downlink

end Obcsw
