import Obcsw.Conservation

/-!
# Shutdown

`stop` clears `m_running`, joins the loop and closes the socket. The loop reads `m_running`
only between two rounds of draining : a loop that stands anywhere else when the flag is
cleared drains the queue once more and returns with the queue empty, and a loop that stands
at its check returns at once, with whatever is in the queue. So the frames are accounted for
when `stop` returns exactly when the flag was not cleared in front of the check with frames
in the queue (`accounted_iff`).

`Drains.step` and `Abandons.step` are what one step keeps in the two cases.
-/

set_option linter.unusedSectionVars false

namespace Obcsw

namespace Downlink

section Threads

variable {Tid : Type} [DecidableEq Tid] {L : JsonLibrary} {cfg : DispatcherConfig}

/-- The label calls a method. -/
def Label.isCall : Label Tid → Bool
  | call _ _ | start | stop => true
  | _ => false

variable (L cfg) in
/-- `stop` of a started dispatcher clears `m_running` from `s` to `s'` and has returned at
`s''`; all calls of `enqueue` have returned before, and no method is called meanwhile. -/
structure Shutdown (s s' s'' : State Tid) (ls : List (Label Tid)) : Prop where
  reachable : (system Tid L cfg).Reachable s
  clearing : s.control = .clearing
  started : s.m_thread ≠ none
  callers : ∀ t, s.callers t = none
  clear : (system Tid L cfg).step s .control s'
  run : (system Tid L cfg).Run s' ls s''
  silent : ∀ l ∈ ls, l.isCall = false
  returned : s''.control = .idle

/-- The queue is empty, and every completed call of `enqueue` is counted as sent or dropped. -/
def Accounted (s : State Tid) : Prop :=
  s.dispatcher.m_queue = [] ∧
    s.dispatcher.m_frames_sent + s.dispatcher.m_frames_dropped = completedCalls s.log

/-- The loop stands at its check with frames in the queue. -/
def AtCheckWithFrames (s : State Tid) : Prop :=
  (∃ i, s.m_thread = some i ∧ s.loops i = .check) ∧ s.dispatcher.m_queue ≠ []

/-! ## The rest of `stop` -/

/-- `stop` has cleared the flag : it joins the loop, or has joined it. -/
structure Stopping (s : State Tid) : Prop where
  cleared : s.dispatcher.m_running = false
  callers : ∀ t, s.callers t = none
  control : s.control = .joining ∨ ((s.control = .closing ∨ s.control = .idle) ∧ s.m_thread = none)

/-- On its way to drain the queue once more. -/
def LoopPc.works : LoopPc → Bool
  | check | exited => false
  | _ => true

/-- What a step changes of the queue and the loops while `stop` waits. -/
inductive Waits (s s' : State Tid) : Prop
  /-- Nothing. -/
  | still (hq : s'.dispatcher.m_queue = s.dispatcher.m_queue) (hl : s'.loops = s.loops)
      (ht : s'.m_thread = s.m_thread)
  /-- The loop has returned and is joined. -/
  | joined (i : ℕ) (hi : s.m_thread = some i) (hexit : s.loops i = .exited)
      (hq : s'.dispatcher.m_queue = s.dispatcher.m_queue) (hl : s'.loops = s.loops)
      (ht : s'.m_thread = none)
  /-- A loop reads the cleared flag and returns. -/
  | exits (i : ℕ) (hi : s.loops i = .check)
      (hq : s'.dispatcher.m_queue = s.dispatcher.m_queue)
      (hl : s'.loops = Function.update s.loops i .exited) (ht : s'.m_thread = s.m_thread)
  /-- A loop finds the queue empty. -/
  | drained (i : ℕ) (hi : s.loops i = .draining) (hempty : s.dispatcher.m_queue = [])
      (hq : s'.dispatcher.m_queue = s.dispatcher.m_queue)
      (hl : s'.loops = Function.update s.loops i .check) (ht : s'.m_thread = s.m_thread)
  /-- A loop goes on to drain. -/
  | works (i : ℕ) (c : LoopPc) (hi : (s.loops i).works = true) (hc : c.works = true)
      (hl : s'.loops = Function.update s.loops i c) (ht : s'.m_thread = s.m_thread)

theorem Stopping.control_mem {s : State Tid} (hs : Stopping s) :
    s.control ∈ [ControlPc.joining, .closing, .idle] := by
  rcases hs.control with h | ⟨h | h, -⟩ <;> simp [h]

theorem Stopping.of_same {s s' : State Tid} (hs : Stopping s)
    (hrun : s'.dispatcher.m_running = s.dispatcher.m_running) (hcallers : s'.callers = s.callers)
    (hcontrol : s'.control = s.control) (hthread : s'.m_thread = s.m_thread) : Stopping s' := by
  refine ⟨hrun.trans hs.cleared, ?_, ?_⟩
  · rw [hcallers]
    exact hs.callers
  · rw [hcontrol, hthread]
    exact hs.control

/-- The steps left while `stop` waits. -/
theorem Stopping.step {s s' : State Tid} {l : Label Tid} (hs : Stopping s)
    (h : Step L cfg s l s') (hl : l.isCall = false) : Stopping s' ∧ Waits s s' := by
  have hmem := hs.control_mem
  cases h with
  | call | start | stop => cases hl
  | enqueue t frame h =>
    rw [hs.callers t] at h
    cases h
  | startRunning h | startStopped h | socketFails _ h | socket _ h | raise h | spawnFails h
  | spawnJoinable _ h | spawn h | stopStopped h | stopRunning h | clear h =>
    rw [h] at hmem
    simp at hmem
  | joinNone h hthread =>
    exact ⟨⟨hs.cleared, hs.callers, Or.inr ⟨Or.inl rfl, hthread⟩⟩, .still rfl rfl rfl⟩
  | join i h hthread hloop =>
    exact ⟨⟨hs.cleared, hs.callers, Or.inr ⟨Or.inl rfl, rfl⟩⟩, .joined i hthread hloop rfl rfl rfl⟩
  | close h hfd =>
    have hthread : s.m_thread = none := by simpa [h] using hs.control
    exact ⟨⟨hs.cleared, hs.callers, Or.inr ⟨Or.inr rfl, hthread⟩⟩, .still rfl rfl rfl⟩
  | closeNone h hfd =>
    have hthread : s.m_thread = none := by simpa [h] using hs.control
    exact ⟨⟨hs.cleared, hs.callers, Or.inr ⟨Or.inr rfl, hthread⟩⟩, .still rfl rfl rfl⟩
  | check i h =>
    refine ⟨hs.of_same rfl rfl rfl rfl, .exits i h rfl ?_ rfl⟩
    rw [hs.cleared]
    rfl
  | sleep i h =>
    exact ⟨hs.of_same rfl rfl rfl rfl, .works i _ (by rw [h]; rfl) rfl rfl rfl⟩
  | drained i h hq => exact ⟨hs.of_same rfl rfl rfl rfl, .drained i h hq rfl rfl rfl⟩
  | pop i frame rest h hq =>
    exact ⟨hs.of_same rfl rfl rfl rfl, .works i _ (by rw [h]; rfl) rfl rfl rfl⟩
  | serialize i frame payload h hok =>
    exact ⟨hs.of_same rfl rfl rfl rfl, .works i _ (by rw [h]; rfl) rfl rfl rfl⟩
  | serializeThrows i frame e h herr =>
    exact ⟨hs.of_same rfl rfl rfl rfl, .still rfl rfl rfl⟩
  | send i net frame payload h =>
    exact ⟨hs.of_same rfl rfl rfl rfl, .works i _ (by rw [h]; rfl) rfl rfl rfl⟩
  | count i frame sent h =>
    exact ⟨hs.of_same (by cases sent <;> rfl) rfl rfl rfl, .works i _ (by rw [h]; rfl) rfl rfl rfl⟩

/-- Frames are in the queue only while the loop works. -/
def Drains (s : State Tid) : Prop :=
  s.dispatcher.m_queue ≠ [] → ∃ i, s.m_thread = some i ∧ (s.loops i).works = true

/-- Frames are in the queue, and no loop works. -/
def Abandons (s : State Tid) : Prop :=
  s.dispatcher.m_queue ≠ [] ∧ ∀ i, (s.loops i).works = false

theorem Drains.step {s s' : State Tid} (hinv : Inv cfg s) (hs : Drains s) (h : Waits s s') :
    Drains s' := by
  intro hne
  cases h with
  | still hq hl ht =>
    rw [hq] at hne
    rw [hl, ht]
    exact hs hne
  | joined i hi hexit hq hl ht =>
    rw [hq] at hne
    obtain ⟨j, hj, hworks⟩ := hs hne
    obtain rfl : i = j := Option.some.inj (hi.symm.trans hj)
    rw [hexit] at hworks
    cases hworks
  | exits i hi hq hl ht =>
    rw [hq] at hne
    obtain ⟨j, hj, hworks⟩ := hs hne
    obtain rfl : i = j := by
      have := hinv.attached i (by rw [hi]; simp)
      exact Option.some.inj (this.symm.trans hj)
    rw [hi] at hworks
    cases hworks
  | drained i hi hempty hq hl ht =>
    rw [hq] at hne
    exact absurd hempty hne
  | works i c hi hc hl ht =>
    refine ⟨i, ht.trans (hinv.attached i fun hexit => ?_), ?_⟩
    · rw [hexit] at hi
      cases hi
    · rw [hl, Function.update_self]
      exact hc

theorem Abandons.step {s s' : State Tid} (hs : Abandons s) (h : Waits s s') : Abandons s' := by
  obtain ⟨hne, hidle⟩ := hs
  cases h with
  | still hq hl ht => exact ⟨by rwa [hq], by rwa [hl]⟩
  | joined i hi hexit hq hl ht => exact ⟨by rwa [hq], by rwa [hl]⟩
  | exits i hi hq hl ht =>
    refine ⟨by rwa [hq], fun j => ?_⟩
    rw [hl, Function.update_apply]
    split
    · rfl
    · exact hidle j
  | drained i hi hempty hq hl ht => exact absurd hempty hne
  | works i c hi hc hl ht =>
    rw [hidle i] at hi
    cases hi

/-! ## The loop runs while the flag is up -/

/-- An attached loop runs until `stop` has cleared the flag and waits for it. -/
structure Live (s : State Tid) : Prop where
  raised : s.control = .spawning → s.dispatcher.m_running = true
  running : ∀ i, s.m_thread = some i → s.dispatcher.m_running = true ∨ s.control = .joining
  alive : ∀ i, s.m_thread = some i → s.loops i = .exited → s.control = .joining

/-- The control thread moves, and not from the join. -/
theorem Live.move_control {s s' : State Tid} (hs : Live s) (hne : s.control ≠ .joining)
    (hrun : s.dispatcher.m_running = true → s'.dispatcher.m_running = true ∨ s'.control = .joining)
    (hthread : s'.m_thread = s.m_thread) (hloops : s'.loops = s.loops)
    (hspawning : s'.control = .spawning → s'.dispatcher.m_running = true) : Live s' := by
  refine ⟨hspawning, fun i hi => ?_, fun i hi hexit => ?_⟩
  · rw [hthread] at hi
    exact hrun ((hs.running i hi).resolve_right hne)
  · rw [hthread] at hi
    rw [hloops] at hexit
    exact absurd (hs.alive i hi hexit) hne

/-- A loop moves, and returns only when the flag is down. -/
theorem Live.move_loop {s s' : State Tid} (hs : Live s) {i : ℕ} {c : LoopPc}
    (hrun : s'.dispatcher.m_running = s.dispatcher.m_running) (hcontrol : s'.control = s.control)
    (hthread : s'.m_thread = s.m_thread) (hloops : s'.loops = Function.update s.loops i c)
    (hc : c = .exited → s.dispatcher.m_running = false) : Live s' := by
  refine ⟨?_, ?_, fun j hj hexit => ?_⟩
  · rw [hcontrol, hrun]
    exact hs.raised
  · rw [hthread, hcontrol, hrun]
    exact hs.running
  · rw [hthread] at hj
    rw [hcontrol]
    rw [hloops, Function.update_apply] at hexit
    split at hexit
    · refine (hs.running j hj).resolve_left fun hup => ?_
      rw [hc hexit] at hup
      cases hup
    · exact hs.alive j hj hexit

/-- Neither moves. -/
theorem Live.of_same {s s' : State Tid} (hs : Live s)
    (hrun : s'.dispatcher.m_running = s.dispatcher.m_running) (hcontrol : s'.control = s.control)
    (hthread : s'.m_thread = s.m_thread) (hloops : s'.loops = s.loops) : Live s' := by
  refine ⟨?_, ?_, ?_⟩
  · rw [hcontrol, hrun]
    exact hs.raised
  · rw [hthread, hcontrol, hrun]
    exact hs.running
  · rw [hthread, hcontrol, hloops]
    exact hs.alive

theorem enqueue_m_running (d : Dispatcher) (frame : TelemetryFrame) :
    (d.enqueue cfg frame).2.m_running = d.m_running := by
  unfold Dispatcher.enqueue
  split <;> rfl

theorem Live.step {s s' : State Tid} {l : Label Tid} (hs : Live s) (h : Step L cfg s l s') :
    Live s' := by
  cases h with
  | call t frame h => exact hs.of_same rfl rfl rfl rfl
  | enqueue t frame h => exact hs.of_same (enqueue_m_running s.dispatcher frame) rfl rfl rfl
  | start h | startRunning h | startStopped h | socketFails _ h | socket _ h | spawnFails h
  | stop h | stopStopped h | stopRunning h | close h | closeNone h =>
    exact hs.move_control (by simp [h]) Or.inl rfl rfl (by rintro ⟨⟩)
  | raise h => exact hs.move_control (by simp [h]) (fun _ => Or.inl rfl) rfl rfl (fun _ => rfl)
  | clear h => exact hs.move_control (by simp [h]) (fun _ => Or.inr rfl) rfl rfl (by rintro ⟨⟩)
  | spawnJoinable i h hthread => exact hs.of_same rfl rfl rfl rfl
  | spawn h hthread =>
    refine ⟨by rintro ⟨⟩, fun _ _ => Or.inl (hs.raised h), ?_⟩
    rintro i ⟨⟩ hexit
    simp [State.record, State.toControl, State.toLoop] at hexit
  | joinNone h hthread =>
    refine ⟨by rintro ⟨⟩, fun i hi => ?_, fun i hi => ?_⟩ <;> cases hthread.symm.trans hi
  | join i h hthread hloop =>
    exact ⟨by rintro ⟨⟩, by rintro _ ⟨⟩, by rintro _ ⟨⟩⟩
  | check i h =>
    refine hs.move_loop rfl rfl rfl rfl fun hexit => ?_
    by_contra hup
    rw [Bool.not_eq_false] at hup
    rw [hup] at hexit
    cases hexit
  | serializeThrows i frame e h herr => exact hs.of_same rfl rfl rfl rfl
  | sleep | drained | pop | serialize | send =>
    exact hs.move_loop rfl rfl rfl rfl (by rintro ⟨⟩)
  | count i frame sent h =>
    exact hs.move_loop (by cases sent <;> rfl) rfl rfl rfl (by rintro ⟨⟩)

theorem live_reachable {s : State Tid} (h : (system Tid L cfg).Reachable s) : Live s := by
  refine h.induct (fun s hs => ?_) fun s l s' _ hs hstep => hs.step (step_of_next hstep).2
  obtain rfl : s = {} := hs
  exact ⟨nofun, nofun, nofun⟩

/-! ## The result -/

/-- What a waiting step keeps, the rest of `stop` keeps. -/
theorem Stopping.run {Q : State Tid → Prop}
    (hQ : ∀ s s', Inv cfg s → Q s → Waits s s' → Q s') {s s' : State Tid} {ls : List (Label Tid)}
    (hr : (system Tid L cfg).Run s ls s') (hsilent : ∀ l ∈ ls, l.isCall = false)
    (hs : Inv cfg s ∧ Stopping s ∧ Q s) : Inv cfg s' ∧ Stopping s' ∧ Q s' := by
  refine hr.induct (I := fun s => Inv cfg s ∧ Stopping s ∧ Q s) (P := fun l => l.isCall = false)
    ?_ hsilent hs
  rintro s l s' hl ⟨hinv, hstop, hq⟩ h
  have hstep := (step_of_next h).2
  obtain ⟨hstop', hwaits⟩ := hstop.step hstep hl
  exact ⟨hinv.step hstep, hstop', hQ s s' hinv hq hwaits⟩

section Result

variable {s s' s'' : State Tid} {ls : List (Label Tid)}

/-- The step that clears the flag. -/
theorem Shutdown.cleared (h : Shutdown L cfg s s' s'' ls) : s' = { s with
    dispatcher := { s.dispatcher with m_running := false } }.toControl .joining := by
  obtain ⟨-, hstep⟩ := step_of_next h.clear
  have hclearing := h.clearing
  cases hstep <;> simp_all

theorem Shutdown.inv (h : Shutdown L cfg s s' s'' ls) : Inv cfg s' :=
  (inv_reachable h.reachable).step (step_of_next h.clear).2

theorem Shutdown.stopping (h : Shutdown L cfg s s' s'' ls) : Stopping s' := by
  rw [h.cleared]
  exact ⟨rfl, h.callers, Or.inl rfl⟩

/-- Away from its check, the loop drains the queue once more. -/
theorem Shutdown.drains (h : Shutdown L cfg s s' s'' ls) (hs : ¬AtCheckWithFrames s) :
    Drains s' := by
  rw [h.cleared]
  intro hne
  obtain ⟨i, hi⟩ := Option.ne_none_iff_exists'.mp h.started
  refine ⟨i, hi, ?_⟩
  have hcheck : s.loops i ≠ .check := fun hc => hs ⟨⟨i, hi, hc⟩, hne⟩
  have hexited : s.loops i ≠ .exited := by
    intro hexit
    have hjoining := (live_reachable h.reachable).alive i hi hexit
    rw [h.clearing] at hjoining
    cases hjoining
  show (s.loops i).works = true
  cases hc : s.loops i <;> first | rfl | contradiction

/-- At its check, the loop returns and leaves the frames. -/
theorem Shutdown.abandons (h : Shutdown L cfg s s' s'' ls) (hs : AtCheckWithFrames s) :
    Abandons s' := by
  rw [h.cleared]
  obtain ⟨⟨i, hi, hcheck⟩, hne⟩ := hs
  refine ⟨hne, fun j => ?_⟩
  show (s.loops j).works = false
  by_cases hexit : s.loops j = .exited
  · rw [hexit]
    rfl
  · have hj := (inv_reachable h.reachable).attached j hexit
    obtain rfl : i = j := Option.some.inj (hi.symm.trans hj)
    rw [hcheck]
    rfl

/-- When `stop` returns, the frames are accounted for exactly if it did not clear the flag
in front of the check with frames in the queue. -/
theorem accounted_iff (h : Shutdown L cfg s s' s'' ls) :
    Accounted s'' ↔ ¬AtCheckWithFrames s := by
  constructor
  · intro hacc hs
    obtain ⟨-, -, hne, -⟩ := Stopping.run (Q := Abandons) (fun _ _ _ hq hw => hq.step hw)
      h.run h.silent ⟨h.inv, h.stopping, h.abandons hs⟩
    exact hne hacc.1
  · intro hs
    obtain ⟨hinv, hstop, hdrains⟩ := Stopping.run (Q := Drains) (fun _ _ hi hq hw => hq.step hi hw)
      h.run h.silent ⟨h.inv, h.stopping, h.drains hs⟩
    have hthread : s''.m_thread = none := by simpa [h.returned] using hstop.control
    have hq : s''.dispatcher.m_queue = [] := by
      by_contra hne
      obtain ⟨i, hi, -⟩ := hdrains hne
      rw [hthread] at hi
      cases hi
    refine ⟨hq, ?_⟩
    rw [hinv.conserved, hq, State.inHand, hthread]
    rfl

end Result

end Threads

/-! ## A shutdown that drains and one that does not -/

open TelemetrySerializer (frameTree nominalFrame nominalText)
open Transitions (exec reachable_of_exec run_ofPartial_iff)

/-- The library of the nominal frame. -/
def frameLibrary : JsonLibrary :=
  .ofText nominalText (frameTree .float nominalFrame)

/-- Start the loop and enqueue the nominal frame. -/
def enqueueOne : List (Label Unit) :=
  [.start, .control, .socket 3, .control, .spawn true, .call () nominalFrame, .enqueue ()]

/-- A run up to the point where `stop` clears the flag, and on to its return, is a shutdown. -/
theorem shutdown_of_exec {before after : List (Label Unit)} {s s' s'' : State Unit}
    (hs : exec (next frameLibrary {}) {} before = some s)
    (hs' : next frameLibrary {} s .control = some s')
    (hs'' : exec (next frameLibrary {}) s' after = some s'') (hclearing : s.control = .clearing)
    (hstarted : s.m_thread ≠ none) (hcallers : s.callers () = none)
    (hsilent : ∀ l ∈ after, l.isCall = false) (hreturned : s''.control = .idle) :
    Shutdown frameLibrary {} s s' s'' after where
  reachable := reachable_of_exec before hs
  clearing := hclearing
  started := hstarted
  callers := fun _ => hcallers
  clear := hs'
  run := run_ofPartial_iff.mpr hs''
  silent := hsilent
  returned := hreturned

/-- `stop` is about to clear the flag while the loop sleeps. -/
def asleep : State Unit :=
  (exec (next frameLibrary {}) {} (enqueueOne ++ [.loop 0, .stop, .control])).get
    (by decide +kernel)

def asleepCleared : State Unit :=
  (next frameLibrary {} asleep .control).get (by decide +kernel)

/-- The loop wakes up, sends the frame, finds the queue empty and returns. -/
def drainOne : List (Label Unit) :=
  [.loop 0, .loop 0, .loop 0, .send 0 ⟨1, nominalText.length⟩, .loop 0, .loop 0, .loop 0, .control,
    .control]

def drainedOne : State Unit :=
  (exec (next frameLibrary {}) asleepCleared drainOne).get (by decide +kernel)

theorem shutdown_asleep : Shutdown frameLibrary {} asleep asleepCleared drainedOne drainOne :=
  shutdown_of_exec (Option.some_get _).symm (Option.some_get _).symm (Option.some_get _).symm
    (by decide +kernel) (by decide +kernel) (by decide +kernel) (by decide +kernel)
    (by decide +kernel)

theorem accounted_drainedOne : Accounted drainedOne ∧ drainedOne.dispatcher.m_frames_sent = 1 := by
  refine ⟨(accounted_iff shutdown_asleep).mpr ?_, by decide +kernel⟩
  rintro ⟨⟨i, hi, hcheck⟩, -⟩
  have hthread : asleep.m_thread = some 0 := by decide +kernel
  obtain rfl : 0 = i := Option.some.inj (hthread.symm.trans hi)
  revert hcheck
  decide +kernel

/-- `stop` is about to clear the flag before the loop has read it. -/
def early : State Unit :=
  (exec (next frameLibrary {}) {} (enqueueOne ++ [.stop, .control])).get (by decide +kernel)

def earlyCleared : State Unit :=
  (next frameLibrary {} early .control).get (by decide +kernel)

/-- The loop reads the flag and returns. -/
def leaveOne : List (Label Unit) :=
  [.loop 0, .control, .control]

def leftOne : State Unit :=
  (exec (next frameLibrary {}) earlyCleared leaveOne).get (by decide +kernel)

/-- The frame accepted before that `stop` is neither sent nor counted. -/
theorem not_accounted_leftOne :
    Shutdown frameLibrary {} early earlyCleared leftOne leaveOne ∧ ¬Accounted leftOne := by
  refine ⟨shutdown_of_exec (Option.some_get _).symm (Option.some_get _).symm
    (Option.some_get _).symm (by decide +kernel) (by decide +kernel) (by decide +kernel)
    (by decide +kernel) (by decide +kernel), fun h => ?_⟩
  have hcount : leftOne.dispatcher.m_frames_sent + leftOne.dispatcher.m_frames_dropped ≠
      completedCalls leftOne.log := by decide +kernel
  exact hcount h.2

end Downlink

end Obcsw
