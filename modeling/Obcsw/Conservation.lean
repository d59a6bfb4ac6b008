import Obcsw.Downlink

/-!
# Conservation of frames

Every frame given to `enqueue` is in one place : sent, dropped, in the queue, or in the
hands of the loop that popped it. And the loop works in order : the accepted frames are the
popped ones followed by the queue, and the popped ones are those handed to `sendUdp`
followed by the one in hand.

`Inv` is the invariant. At most one loop is alive, the one attached to `m_thread`
(`Inv.attached`), so the frame in hand is the one that loop holds. A step of the control
thread other than creating and joining the thread is `Quiet`, a step of the loop is covered
by `Inv.move_loop`. `conserves` states the result for every reachable state.
-/

set_option linter.unusedSectionVars false

namespace Obcsw

namespace Downlink

/-! ## What the log says -/

/-- The frames `enqueue` accepted, in order. -/
def acceptedFrames (es : List Effect) : List TelemetryFrame :=
  es.filterMap fun
    | .accepted frame => some frame
    | _ => none

/-- The frames popped, in order. -/
def poppedFrames (es : List Effect) : List TelemetryFrame :=
  es.filterMap fun
    | .popped frame => some frame
    | _ => none

/-- The frames handed to `sendUdp`, in order. -/
def handedFrames (es : List Effect) : List TelemetryFrame :=
  es.filterMap fun
    | .handed _ frame _ => some frame
    | _ => none

/-- The number of completed `enqueue` calls. -/
def completedCalls (es : List Effect) : ℕ :=
  es.countP fun
    | .accepted _ | .rejected _ => true
    | _ => false

/-- The effects of `enqueue`, of a pop and of a send. -/
def Effect.movesFrame : Effect → Bool
  | accepted _ | rejected _ | popped _ | handed _ _ _ => true
  | _ => false

section Log

variable (es es' : List Effect)

@[simp] theorem acceptedFrames_append :
    acceptedFrames (es ++ es') = acceptedFrames es ++ acceptedFrames es' :=
  List.filterMap_append

@[simp] theorem poppedFrames_append :
    poppedFrames (es ++ es') = poppedFrames es ++ poppedFrames es' :=
  List.filterMap_append

@[simp] theorem handedFrames_append :
    handedFrames (es ++ es') = handedFrames es ++ handedFrames es' :=
  List.filterMap_append

@[simp] theorem completedCalls_append :
    completedCalls (es ++ es') = completedCalls es + completedCalls es' :=
  List.countP_append

variable {es}

/-- Effects that move no frame say nothing about frames. -/
theorem frames_of_still (h : ∀ e ∈ es, e.movesFrame = false) : acceptedFrames es = [] ∧
    poppedFrames es = [] ∧ handedFrames es = [] ∧ completedCalls es = 0 := by
  induction es with
  | nil => exact ⟨rfl, rfl, rfl, rfl⟩
  | cons e es ih =>
    have he := h e List.mem_cons_self
    have hes := ih fun e' he' => h e' (List.mem_cons_of_mem _ he')
    cases e <;> first | exact hes | cases he

end Log

section Threads

variable {Tid : Type} [DecidableEq Tid] {L : JsonLibrary} {cfg : DispatcherConfig}

/-! ## The invariant -/

/-- What `p` reads off the attached loop. -/
def State.inHand (s : State Tid) (p : LoopPc → List TelemetryFrame) : List TelemetryFrame :=
  match s.m_thread with
  | some i => p (s.loops i)
  | none => []

/-- The invariant of the downlink. -/
structure Inv (cfg : DispatcherConfig) (s : State Tid) : Prop where
  /-- A loop that has not returned is the one attached to `m_thread`. -/
  attached : ∀ i, s.loops i ≠ .exited → s.m_thread = some i
  spawned : ∀ i, s.m_thread = some i → i < s.spawned
  bounded : s.dispatcher.m_queue.length ≤ cfg.max_queue_depth.toNat
  conserved : completedCalls s.log = s.dispatcher.m_frames_sent + s.dispatcher.m_frames_dropped +
    s.dispatcher.m_queue.length + (s.inHand LoopPc.uncounted).length
  accepted : acceptedFrames s.log = poppedFrames s.log ++ s.dispatcher.m_queue
  handed : poppedFrames s.log = handedFrames s.log ++ s.inHand LoopPc.unhanded

theorem inv_init : Inv cfg ({} : State Tid) where
  attached _ h := absurd rfl h
  spawned _ h := nomatch h
  bounded := Nat.zero_le _
  conserved := rfl
  accepted := rfl
  handed := rfl

/-- Nothing that the invariant speaks of changes. -/
structure Quiet (s s' : State Tid) (es : List Effect) : Prop where
  thread : s'.m_thread = s.m_thread
  spawned : s'.spawned = s.spawned
  loops : s'.loops = s.loops
  queue : s'.dispatcher.m_queue = s.dispatcher.m_queue
  sent : s'.dispatcher.m_frames_sent = s.dispatcher.m_frames_sent
  dropped : s'.dispatcher.m_frames_dropped = s.dispatcher.m_frames_dropped
  log : s'.log = s.log ++ es
  still : ∀ e ∈ es, e.movesFrame = false

theorem Inv.quiet {s s' : State Tid} {l : List Effect} (hs : Inv cfg s) (h : Quiet s s' l) :
    Inv cfg s' := by
  obtain ⟨haccepted, hpopped, hhanded, hcompleted⟩ := frames_of_still h.still
  have hhand : ∀ p, s'.inHand p = s.inHand p := by
    intro p
    rw [State.inHand, State.inHand, h.thread, h.loops]
  constructor
  · rw [h.loops, h.thread]
    exact hs.attached
  · rw [h.thread, h.spawned]
    exact hs.spawned
  · rw [h.queue]
    exact hs.bounded
  · rw [h.log, completedCalls_append, hcompleted, hhand, h.sent, h.dropped, h.queue]
    exact hs.conserved
  · rw [h.log, acceptedFrames_append, poppedFrames_append, haccepted, hpopped, h.queue,
      List.append_nil, List.append_nil]
    exact hs.accepted
  · rw [h.log, poppedFrames_append, handedFrames_append, hpopped, hhanded, hhand,
      List.append_nil, List.append_nil]
    exact hs.handed

/-- Loop `i` moves from `c` to `c'` and shows `es`. -/
structure LoopMove (s s' : State Tid) (i : ℕ) (c c' : LoopPc) (es : List Effect) : Prop where
  source : s.loops i = c
  alive : c ≠ .exited
  target : s'.loops = Function.update s.loops i c'
  thread : s'.m_thread = s.m_thread
  spawned : s'.spawned = s.spawned
  log : s'.log = s.log ++ es
  calls : acceptedFrames es = [] ∧ completedCalls es = 0
  queue : s.dispatcher.m_queue = poppedFrames es ++ s'.dispatcher.m_queue
  counted : s'.dispatcher.m_frames_sent + s'.dispatcher.m_frames_dropped +
      s'.dispatcher.m_queue.length + c'.uncounted.length =
    s.dispatcher.m_frames_sent + s.dispatcher.m_frames_dropped +
      s.dispatcher.m_queue.length + c.uncounted.length
  handed : c.unhanded ++ poppedFrames es = handedFrames es ++ c'.unhanded

/-- Loop `i` moves, and nothing else happens. -/
theorem LoopMove.still {s : State Tid} {i : ℕ} {c c' : LoopPc} (h : s.loops i = c)
    (halive : c ≠ .exited) (huncounted : c'.uncounted = c.uncounted)
    (hunhanded : c'.unhanded = c.unhanded) : LoopMove s (s.toLoop i c') i c c' [] where
  source := h
  alive := halive
  target := rfl
  thread := rfl
  spawned := rfl
  log := (List.append_nil _).symm
  calls := ⟨rfl, rfl⟩
  queue := rfl
  counted := by
    rw [huncounted]
    rfl
  handed := by
    rw [hunhanded]
    exact List.append_nil _

theorem Inv.move_loop {s s' : State Tid} {i : ℕ} {c c' : LoopPc} {l : List Effect}
    (hs : Inv cfg s) (h : LoopMove s s' i c c' l) : Inv cfg s' := by
  have hthread : s.m_thread = some i := hs.attached i (by rw [h.source]; exact h.alive)
  have hthread' : s'.m_thread = some i := h.thread.trans hthread
  have hhand : ∀ p, s.inHand p = p c := by
    intro p
    rw [State.inHand, hthread, ← h.source]
  have hhand' : ∀ p, s'.inHand p = p c' := by
    intro p
    rw [State.inHand, hthread', h.target]
    simp only [Function.update_self]
  obtain ⟨haccepted, hcompleted⟩ := h.calls
  constructor
  · intro j hj
    rcases eq_or_ne j i with rfl | hne
    · exact hthread'
    · rw [h.target, Function.update_of_ne hne] at hj
      rw [h.thread]
      exact hs.attached j hj
  · rw [h.thread, h.spawned]
    exact hs.spawned
  · have hlen := congrArg List.length h.queue
    rw [List.length_append] at hlen
    exact le_trans (by omega) hs.bounded
  · have hconserved := hs.conserved
    have hcounted := h.counted
    rw [hhand] at hconserved
    rw [h.log, completedCalls_append, hcompleted, hhand']
    omega
  · rw [h.log, acceptedFrames_append, poppedFrames_append, haccepted, hs.accepted, h.queue,
      List.append_nil, List.append_assoc]
  · rw [h.log, poppedFrames_append, handedFrames_append, hs.handed, hhand, hhand',
      List.append_assoc, List.append_assoc, h.handed]

/-- A completed call counts a drop or puts the frame at the back. -/
theorem Inv.enqueue {s : State Tid} (hs : Inv cfg s) (frame : TelemetryFrame)
    (callers : Tid → Option TelemetryFrame) :
    Inv cfg ({ s with
      dispatcher := (s.dispatcher.enqueue cfg frame).2
      callers := callers }.record
        [if (s.dispatcher.enqueue cfg frame).1 then .accepted frame else .rejected frame]) := by
  have hconserved := hs.conserved
  unfold Dispatcher.enqueue
  by_cases hfull : s.dispatcher.m_queue.length ≥ cfg.max_queue_depth.toNat
  · rw [if_pos hfull]
    refine ⟨hs.attached, hs.spawned, hs.bounded, ?_, ?_, ?_⟩
    · simp only [State.record, completedCalls_append, hconserved]
      simp only [completedCalls, State.inHand, Bool.false_eq_true, if_false, List.countP_cons,
        List.countP_nil, if_true]
      omega
    · simpa [State.record, acceptedFrames, poppedFrames] using hs.accepted
    · simpa [State.record, handedFrames, poppedFrames, State.inHand] using hs.handed
  · rw [if_neg hfull]
    refine ⟨hs.attached, hs.spawned, ?_, ?_, ?_, ?_⟩
    · simp only [State.record, List.length_append, List.length_singleton]
      omega
    · simp only [State.record, completedCalls_append, hconserved]
      simp only [completedCalls, State.inHand, if_true, List.countP_cons, List.countP_nil,
        List.length_append, List.length_singleton]
      omega
    · have haccepted := hs.accepted
      simp only [State.record, acceptedFrames_append, poppedFrames_append, haccepted]
      simp [acceptedFrames, poppedFrames]
    · simpa [State.record, handedFrames, poppedFrames, State.inHand] using hs.handed

/-- A new loop holds no frame. -/
theorem Inv.spawn {s : State Tid} (hs : Inv cfg s) (hthread : s.m_thread = none) :
    Inv cfg ((({ s with
      m_thread := some s.spawned
      spawned := s.spawned + 1 }.toLoop s.spawned .check).toControl .idle).record
        [.startReturned]) := by
  have hhand : ∀ p, s.inHand p = [] := by
    intro p
    rw [State.inHand, hthread]
  have hconserved := hs.conserved
  have hhanded := hs.handed
  rw [hhand] at hconserved hhanded
  constructor
  · intro i hi
    rcases eq_or_ne i s.spawned with rfl | hne
    · rfl
    · simp only [State.record, State.toControl, State.toLoop, Function.update_of_ne hne] at hi
      rw [hs.attached i hi] at hthread
      cases hthread
  · rintro i ⟨⟩
    exact Nat.lt_succ_self _
  · exact hs.bounded
  · simpa [State.record, State.toControl, State.toLoop, State.inHand, completedCalls,
      LoopPc.uncounted] using hconserved
  · simpa [State.record, State.toControl, State.toLoop, acceptedFrames, poppedFrames]
      using hs.accepted
  · simpa [State.record, State.toControl, State.toLoop, State.inHand, poppedFrames, handedFrames,
      LoopPc.unhanded] using hhanded

/-- A loop that has returned holds no frame. -/
theorem Inv.join {s : State Tid} (hs : Inv cfg s) {i : ℕ} (hthread : s.m_thread = some i)
    (hloop : s.loops i = .exited) (c : ControlPc) :
    Inv cfg ({ s with m_thread := none }.toControl c) := by
  have hconserved := hs.conserved
  have hhanded := hs.handed
  simp only [State.inHand, hthread, hloop] at hconserved hhanded
  constructor
  · intro j hj
    have hj' := hs.attached j hj
    rw [hthread] at hj'
    obtain rfl := Option.some.inj hj'
    exact absurd hloop hj
  · exact fun j hj => nomatch hj
  · exact hs.bounded
  · exact hconserved
  · exact hs.accepted
  · exact hhanded

/-- Every step keeps the invariant. -/
theorem Inv.step {s s' : State Tid} {l : Label Tid} (hs : Inv cfg s) (h : Step L cfg s l s') :
    Inv cfg s' := by
  cases h with
  | enqueue t frame h => exact hs.enqueue frame _
  | spawn h hthread => exact hs.spawn hthread
  | join i h hthread hloop => exact hs.join hthread hloop .closing
  | check i h => exact hs.move_loop (.still h (by simp) (by split <;> rfl) (by split <;> rfl))
  | sleep i h => exact hs.move_loop (.still h (by simp) rfl rfl)
  | drained i h hq => exact hs.move_loop (.still h (by simp) rfl rfl)
  | pop i frame rest h hq =>
    refine hs.move_loop ⟨h, by simp, rfl, rfl, rfl, rfl, ⟨rfl, rfl⟩, hq, ?_, rfl⟩
    rw [hq]
    rfl
  | serialize i frame payload h hok => exact hs.move_loop (.still h (by simp) rfl rfl)
  | send i net frame payload h =>
    exact hs.move_loop ⟨h, by simp, rfl, rfl, rfl, rfl, ⟨rfl, rfl⟩, rfl, rfl, rfl⟩
  | count i frame sent h =>
    refine hs.move_loop ⟨h, by simp, rfl, rfl, rfl, rfl, ⟨rfl, rfl⟩, ?_, ?_, rfl⟩ <;>
      cases sent <;> simp [State.record, State.toLoop, TelemetryDispatcher.counted, poppedFrames,
        LoopPc.uncounted] <;> omega
  | _ =>
    first
    | exact hs.quiet (l := []) ⟨rfl, rfl, rfl, rfl, rfl, rfl, (List.append_nil _).symm, by simp⟩
    | exact hs.quiet ⟨rfl, rfl, rfl, rfl, rfl, rfl, rfl, by simp [Effect.movesFrame]⟩

theorem inv_reachable {s : State Tid} (h : (system Tid L cfg).Reachable s) : Inv cfg s := by
  refine h.induct (fun s hs => ?_) fun s l s' _ hs hstep => hs.step (step_of_next hstep).2
  obtain rfl : s = {} := hs
  exact inv_init

/-! ## The result -/

/-- The frames popped and not yet counted, by any loop. -/
def State.inFlight (s : State Tid) : List TelemetryFrame :=
  (List.range s.spawned).flatMap fun i => (s.loops i).uncounted

theorem flatMap_range_of_single {α : Type} {f : ℕ → List α} {n i : ℕ} (hi : i < n)
    (h : ∀ j, j ≠ i → f j = []) : (List.range n).flatMap f = f i := by
  induction n with
  | zero => cases hi
  | succ n ih =>
    rw [List.range_succ, List.flatMap_append, List.flatMap_singleton]
    rcases Nat.lt_succ_iff_lt_or_eq.mp hi with hlt | rfl
    · rw [ih hlt, h n (Nat.ne_of_gt hlt), List.append_nil]
    · have hnil : (List.range i).flatMap f = [] :=
        List.flatMap_eq_nil_iff.mpr fun j hj => h j (Nat.ne_of_lt (List.mem_range.mp hj))
      rw [hnil, List.nil_append]

/-- Only the attached loop holds a frame. -/
theorem Inv.inFlight_eq {s : State Tid} (hs : Inv cfg s) :
    s.inFlight = s.inHand LoopPc.uncounted := by
  have hexited : ∀ i, s.m_thread ≠ some i → (s.loops i).uncounted = [] := by
    intro i hi
    by_contra hne
    refine hi (hs.attached i fun hexit => ?_)
    rw [hexit] at hne
    exact hne rfl
  unfold State.inFlight State.inHand
  cases hthread : s.m_thread with
  | none => exact List.flatMap_eq_nil_iff.mpr fun i _ => hexited i (by rw [hthread]; simp)
  | some i =>
    refine flatMap_range_of_single (hs.spawned i hthread) fun j hj => hexited j ?_
    rw [hthread]
    exact fun h => hj (Option.some.inj h).symm

theorem State.length_inHand_le (s : State Tid) {p : LoopPc → List TelemetryFrame}
    (hp : ∀ c, (p c).length ≤ 1) : (s.inHand p).length ≤ 1 := by
  unfold State.inHand
  split
  · exact hp _
  · exact Nat.zero_le 1

/-- Frames are conserved and keep their order at `s`. -/
structure Conserves (cfg : DispatcherConfig) (s : State Tid) : Prop where
  bounded : s.dispatcher.m_queue.length ≤ cfg.max_queue_depth.toNat
  /-- Every completed call is accounted for in one place. -/
  conserved : completedCalls s.log = s.dispatcher.m_frames_sent + s.dispatcher.m_frames_dropped +
    s.dispatcher.m_queue.length + s.inFlight.length
  /-- At most one frame has been popped and not yet counted. -/
  single : s.inFlight.length ≤ 1
  /-- The accepted frames are the popped ones followed by the queue. -/
  ordered : acceptedFrames s.log = poppedFrames s.log ++ s.dispatcher.m_queue
  /-- The popped frames are the ones handed to `sendUdp`, and at most one more. -/
  handed : ∃ rest, poppedFrames s.log = handedFrames s.log ++ rest ∧ rest.length ≤ 1
  /-- The same equation for the 64-bit counters. -/
  counters : UInt64.ofNat (completedCalls s.log) = s.dispatcher.framesSent +
    s.dispatcher.framesDropped + UInt64.ofNat (s.dispatcher.m_queue.length + s.inFlight.length)

/-- Every reachable state conserves frames. -/
theorem conserves {s : State Tid} (h : (system Tid L cfg).Reachable s) : Conserves cfg s := by
  have hs := inv_reachable h
  have hflight := hs.inFlight_eq
  have hconserved := hs.conserved
  rw [← hflight] at hconserved
  exact {
    bounded := hs.bounded
    conserved := hconserved
    single := by
      rw [hflight]
      exact s.length_inHand_le fun c => by cases c <;> simp [LoopPc.uncounted]
    ordered := hs.accepted
    handed := ⟨_, hs.handed, s.length_inHand_le fun c => by cases c <;> simp [LoopPc.unhanded]⟩
    counters := by
      rw [hconserved, Dispatcher.framesSent, Dispatcher.framesDropped]
      simp only [UInt64.ofNat_add, UInt64.add_assoc] }

end Threads

/-- A run that starts the loop, enqueues two frames and pops the first. -/
def popFirst : List (Label Unit) :=
  [.start, .control, .socket 3, .control, .spawn true, .call () {}, .enqueue (), .call () {},
    .enqueue (), .loop 0, .loop 0, .loop 0]

theorem popFirst_runs : (Transitions.exec (next (.ofText [] .null) {}) ({} : State Unit)
    popFirst).isSome = true := by
  decide

/-- The state after that run. -/
def poppedFirst : State Unit :=
  (Transitions.exec (next (.ofText [] .null) {}) {} popFirst).get popFirst_runs

theorem conserves_poppedFirst : Conserves {} poppedFirst ∧ poppedFirst.inFlight.length = 1 :=
  ⟨conserves (L := .ofText [] .null)
    (Transitions.reachable_of_exec popFirst (Option.some_get popFirst_runs).symm), by decide⟩

end Downlink

end Obcsw
