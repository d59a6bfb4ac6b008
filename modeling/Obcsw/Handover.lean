import Obcsw.Fairness
import Obcsw.StopReturns
import Obcsw.TelemetryQueue

/-!
# Handover

While the dispatcher runs, no frame that `enqueue` has accepted waits for ever : when the loop
is scheduled fairly and nobody calls `stop`, it hands the frame to `sendUdp`, however many frames
other threads enqueue meanwhile (`handsOver`).

The queue is first in first out, so the frames ahead of one only get fewer. The rank counts them,
and the steps of the loop to its next hand-over (`LoopPc.turn`).
-/

set_option linter.unusedSectionVars false

namespace Obcsw

namespace Downlink

open Transitions (InfiniteRun)
open Transitions.InfiniteRun (Advances)

/-- The steps of a loop to its next hand-over, while frames are waiting. -/
def LoopPc.turn : LoopPc → ℕ
  | exited => 0
  | sending _ _ => 1
  | serializing _ => 2
  | draining => 3
  | sleeping | counting _ _ => 4
  | check => 5

section Threads

variable {Tid : Type} [DecidableEq Tid] {L : JsonLibrary} {cfg : DispatcherConfig} {i k : ℕ}
  {s s' : State Tid} {l : Label Tid}

/-- The loop is attached, and `stop` has not been called. -/
structure Serving (i : ℕ) (s : State Tid) : Prop where
  thread : s.m_thread = some i
  control : s.control = .idle ∨ s.control = .starting

/-- The flag is up. -/
theorem Serving.running (hs : Serving i s) (hlive : Live s) : s.dispatcher.m_running = true := by
  refine (hlive.running i hs.thread).resolve_right ?_
  rcases hs.control with h | h <;> rw [h] <;> exact nofun

theorem Serving.alive (hs : Serving i s) (hlive : Live s) : s.loops i ≠ .exited := by
  intro hexit
  have hjoin := hlive.alive i hs.thread hexit
  rcases hs.control with h | h <;> rw [h] at hjoin <;> cases hjoin

/-- Only a call of `stop` ends the service. -/
theorem Serving.step (hs : Serving i s) (hlive : Live s) (h : Step L cfg s l s')
    (hl : l ≠ .stop) : Serving i s' := by
  obtain ⟨hthread, hcontrol⟩ := hs
  have hrun := Serving.running ⟨hthread, hcontrol⟩ hlive
  cases h with
  | start | startRunning => exact ⟨hthread, by simp [State.toControl, State.record]⟩
  | startStopped h hdown =>
    rw [hrun] at hdown
    cases hdown
  | stop => exact absurd rfl hl
  | socketFails _ h | socket _ h | raise h | spawnFails h | spawnJoinable _ h | spawn h
  | stopStopped h | stopRunning h | clear h | joinNone h | join _ h | close h | closeNone h =>
    simp [h] at hcontrol
  | _ => exact ⟨hthread, hcontrol⟩

/-! ## The turn of a frame -/

/-- The `k`-th accepted frame has been handed over. -/
def Handed (k : ℕ) (s : State Tid) : Prop :=
  k < (handedFrames s.log).length

/-- The steps of the loop `i` until it hands over the `k`-th accepted frame. -/
def State.ahead (k i : ℕ) (s : State Tid) : ℕ :=
  4 * (k - (handedFrames s.log).length) + (s.loops i).turn

variable (L cfg) in
/-- The frame has been accepted, and the loop that is to hand it over is there. -/
structure Pending (k i : ℕ) (s : State Tid) : Prop where
  reachable : (system Tid L cfg).Reachable s
  serving : Serving i s
  accepted : k < (acceptedFrames s.log).length

/-- Some frame is in the queue while the loop drains. -/
theorem Pending.queue_ne_nil (hs : Pending L cfg k i s) (hwait : ¬Handed k s)
    (h : s.loops i = .draining) : s.dispatcher.m_queue ≠ [] := by
  intro hq
  have hinv := inv_reachable hs.reachable
  have haccepted := hs.accepted
  have hhand : s.inHand LoopPc.unhanded = [] := by
    simp only [State.inHand, hs.serving.thread, h]
    rfl
  rw [hinv.accepted, hinv.handed, hhand, hq, List.append_nil, List.append_nil] at haccepted
  exact hwait haccepted

/-- A step keeps the frame waiting, but for a call of `stop`. -/
theorem Pending.step (hs : Pending L cfg k i s) (h : next L cfg s l = some s') (hl : l ≠ .stop) :
    Pending L cfg k i s' := by
  have hstep := (step_of_next h).2
  refine ⟨hs.reachable.step h, hs.serving.step (live_reachable hs.reachable) hstep hl, ?_⟩
  obtain ⟨es, hlog, -⟩ := shows_of_step hs.reachable hstep
  rw [hlog, acceptedFrames_append, List.length_append]
  exact Nat.lt_add_right _ hs.accepted

/-- Every step but a call of `stop` brings the frame nearer, or is not one of the loop and
leaves it where it is. -/
theorem Pending.advances (hs : Pending L cfg k i s) (hwait : ¬Handed k s)
    (h : next L cfg s l = some s') (hl : l ≠ .stop) (hterm : s'.terminated = false) :
    Advances (fun i l => l.byLoop i) (Pending L cfg k i) (Handed k) (State.ahead k i) (fun _ => i)
      s l s' := by
  have hs' := hs.step h hl
  have hinv := inv_reachable hs.reachable
  have hlive := live_reachable hs.reachable
  have hcontrol := hs.serving.control
  have hwait' : (handedFrames s.log).length ≤ k := Nat.not_lt.mp hwait
  -- A loop that moves is the attached one.
  have hown : ∀ j, s.loops j ≠ .exited → j = i := fun j hj =>
    Option.some.inj ((hinv.attached j hj).symm.trans hs.serving.thread)
  have hlower : ∀ {c : LoopPc} {es : List Effect}, s'.loops = Function.update s.loops i c →
      s'.log = s.log ++ es → handedFrames es = [] → c.turn < (s.loops i).turn →
      Advances (fun i l => l.byLoop i) (Pending L cfg k i) (Handed k) (State.ahead k i) (fun _ => i)
        s l s' := by
    intro c es hloops hlog hes hlt
    refine .lower hs' ?_
    rw [State.ahead, State.ahead, hlog, handedFrames_append, hes, List.append_nil, hloops,
      Function.update_self]
    omega
  cases (step_of_next h).2 with
  | check j hc =>
    obtain rfl := hown j (by simp [hc])
    rw [hs.serving.running hlive] at *
    exact hlower (c := .sleeping) rfl (List.append_nil _).symm rfl (by simp [hc, LoopPc.turn])
  | sleep j hc =>
    obtain rfl := hown j (by simp [hc])
    exact hlower rfl (List.append_nil _).symm rfl (by simp [hc, LoopPc.turn])
  | drained j hc hq =>
    obtain rfl := hown j (by simp [hc])
    exact absurd hq (hs.queue_ne_nil hwait hc)
  | pop j frame rest hc =>
    obtain rfl := hown j (by simp [hc])
    exact hlower rfl rfl rfl (by simp [hc, LoopPc.turn])
  | serialize j frame payload hc =>
    obtain rfl := hown j (by simp [hc])
    exact hlower rfl (List.append_nil _).symm rfl (by simp [hc, LoopPc.turn])
  | serializeThrows => cases hterm
  | send j net frame payload hc =>
    obtain rfl := hown j (by simp [hc])
    rcases Nat.eq_or_lt_of_le hwait' with heq | hlt
    · refine .done ?_
      rw [Handed, State.record, handedFrames_append, List.length_append]
      exact heq ▸ Nat.lt_succ_self _
    · refine .lower hs' ?_
      simp only [State.ahead, State.record, State.toLoop, handedFrames_append, List.length_append,
        Function.update_self, hc, LoopPc.turn]
      have hone : (handedFrames [.handed s.dispatcher.m_sock_fd frame payload]).length = 1 := rfl
      omega
  | count j frame sent hc =>
    obtain rfl := hown j (by simp [hc])
    exact hlower rfl rfl rfl (by simp [hc, LoopPc.turn])
  | stop => exact absurd rfl hl
  | enqueue t frame =>
    refine .wait hs' ?_ rfl not_false
    simp only [State.ahead, State.record, handedFrames_append]
    cases (s.dispatcher.enqueue cfg frame).1 <;> simp [handedFrames]
  | call | start | startRunning =>
    refine .wait hs' ?_ rfl not_false
    simp [State.ahead, State.record, State.toControl, handedFrames]
  | startStopped _ hdown =>
    rw [hs.serving.running hlive] at hdown
    cases hdown
  | socketFails _ hc | socket _ hc | raise hc | spawnFails hc | spawnJoinable _ hc | spawn hc
  | stopStopped hc | stopRunning hc | clear hc | joinNone hc | join _ hc | close hc
  | closeNone hc => simp [hc] at hcontrol

/-- The loop can go on. -/
theorem Pending.enabled (hs : Pending L cfg k i s) (hterm : s.terminated = false) :
    (system Tid L cfg).Enabled (Label.byLoop i) s := by
  have halive := hs.serving.alive (live_reachable hs.reachable)
  obtain ⟨l, hl, hnext⟩ := @exists_loop_step Tid _ L cfg s hterm i halive
  obtain ⟨s', hs'⟩ := Option.isSome_iff_exists.mp hnext
  exact ⟨l, s', hl, hs'⟩

/-- What is accepted stays accepted. -/
theorem accepted_prefix (r : (system Tid L cfg).InfiniteRun) {n m : ℕ} (hm : n ≤ m)
    (hr : (system Tid L cfg).Reachable (r.state n)) :
    (system Tid L cfg).Reachable (r.state m) ∧
      List.IsPrefix (acceptedFrames (r.state n).log) (acceptedFrames (r.state m).log) := by
  refine r.always (I := fun s => (system Tid L cfg).Reachable s ∧
    List.IsPrefix (acceptedFrames (r.state n).log) (acceptedFrames s.log)) ?_
    ⟨hr, List.prefix_refl _⟩ m hm
  rintro m ⟨hr, hprefix⟩
  obtain ⟨es, hlog, -⟩ := shows_of_step hr (step_of_next (r.step m)).2
  refine ⟨hr.step (r.step m), hprefix.trans ?_⟩
  rw [hlog, acceptedFrames_append]
  exact List.prefix_append _ _

/-! ## The result -/

/-- In a run that is fair to the loops and in which nobody calls `stop`, every frame accepted
while the dispatcher runs is handed over. -/
theorem handsOver (r : (system Tid L cfg).InfiniteRun) (hfair : ∀ i, r.Fair (Label.byLoop i))
    (hstop : ∀ n, r.label n ≠ .stop) {n : ℕ} (hr : (system Tid L cfg).Reachable (r.state n))
    (hs : Serving i (r.state n)) {frame : TelemetryFrame}
    (hframe : (acceptedFrames (r.state n).log)[k]? = some frame) :
    ∃ m ≥ n, (handedFrames (r.state m).log)[k]? = some frame := by
  have hlive : ∀ m, (r.state m).terminated = false := fun m => (step_of_next (r.step m)).1
  have hpending : Pending L cfg k i (r.state n) :=
    ⟨hr, hs, (List.getElem?_eq_some_iff.mp hframe).1⟩
  obtain ⟨m, hm, hhanded⟩ := r.reaches hfair
    (fun m hI hgoal => hI.advances hgoal (r.step m) (hstop m) (hlive (m + 1)))
    (fun m hI _ => hI.enabled (hlive m)) hpending
  obtain ⟨hr', haccepted⟩ := accepted_prefix r hm hr
  have hlater : (acceptedFrames (r.state m).log)[k]? = some frame := by
    rw [List.prefix_iff_getElem?.mp haccepted k hpending.accepted, ← hframe,
      List.getElem?_eq_getElem]
  refine ⟨m, hm, ?_⟩
  rw [List.getElem?_eq_getElem hhanded, ← hlater,
    List.prefix_iff_getElem?.mp (handed_isPrefix hr') k hhanded]

/-! ## There are such runs -/

/-- Where every frame serializes, the loop can run for ever. -/
theorem exists_run_of_serves (hok : ∀ frame, ∃ payload, TelemetrySerializer.toJson L frame =
      .ok payload) (hr : (system Tid L cfg).Reachable s) (hs : Serving i s)
    (hterm : s.terminated = false) : ∃ r : (system Tid L cfg).InfiniteRun, r.state 0 = s ∧
      (∀ n, r.label n ≠ .stop) ∧ ∀ i, r.Fair (Label.byLoop i) := by
  have hkeep : ∀ s l s', (∃ j, Label.byLoop j l) →
      ((system Tid L cfg).Reachable s ∧ Serving i s ∧ s.terminated = false) →
      (system Tid L cfg).step s l s' →
      (system Tid L cfg).Reachable s' ∧ Serving i s' ∧ s'.terminated = false := by
    rintro s l s' ⟨j, hl⟩ ⟨hr, hs, hterm⟩ h
    have hstep := (step_of_next h).2
    refine ⟨hr.step h, hs.step (live_reachable hr) hstep (by rintro rfl; exact hl), ?_⟩
    by_contra hterm'
    obtain ⟨-, frame, -, e, herr⟩ :=
      serializing_of_terminated hr hterm hstep (Bool.not_eq_false _ ▸ hterm')
    obtain ⟨payload, hp⟩ := hok frame
    rw [hp] at herr
    cases herr
  have hlive : ∀ s, ((system Tid L cfg).Reachable s ∧ Serving i s ∧ s.terminated = false) →
      (system Tid L cfg).Enabled (fun l => ∃ j, Label.byLoop j l) s := by
    rintro s ⟨hr, hs, hterm⟩
    obtain ⟨l, hl, hnext⟩ :=
      @exists_loop_step Tid _ L cfg s hterm i (hs.alive (live_reachable hr))
    obtain ⟨s', hs'⟩ := Option.isSome_iff_exists.mp hnext
    exact ⟨l, s', ⟨i, hl⟩, hs'⟩
  have hkind : ∀ j (l : Label Tid), l.byLoop j → ∃ j, l.byLoop j := fun j _ hl => ⟨j, hl⟩
  obtain ⟨r, hstart, hall, hfair⟩ := Transitions.exists_fair hkind hkeep hlive ⟨hr, hs, hterm⟩
  refine ⟨r, hstart, fun n hstop => ?_, hfair⟩
  obtain ⟨⟨j, hl⟩, -⟩ := hall n
  rw [hstop] at hl
  exact hl

end Threads

/-- A dispatcher with one frame in its queue. -/
def fed : State Unit :=
  (Transitions.exec (next frameLibrary {}) {} enqueueOne).get (by decide +kernel)

theorem toJson_frameLibrary (frame : TelemetryFrame) :
    TelemetrySerializer.toJson frameLibrary frame = .ok TelemetrySerializer.nominalText := by
  rw [TelemetrySerializer.toJson_eq]
  rfl

theorem handsOver_fed : ∃ r : (system Unit frameLibrary {}).InfiniteRun, r.state 0 = fed ∧
    ∃ m ≥ 0, (handedFrames (r.state m).log)[0]? = some TelemetrySerializer.nominalFrame := by
  have hr : (system Unit frameLibrary {}).Reachable fed :=
    Transitions.reachable_of_exec enqueueOne (Option.some_get _).symm
  have hs : Serving 0 fed := ⟨by decide +kernel, by decide +kernel⟩
  obtain ⟨r, hstart, hstop, hfair⟩ :=
    exists_run_of_serves (fun frame => ⟨_, toJson_frameLibrary frame⟩) hr hs (by decide +kernel)
  refine ⟨r, hstart, handsOver r hfair hstop (hstart ▸ hr) (hstart ▸ hs) ?_⟩
  rw [hstart]
  decide +kernel

end Downlink

end Obcsw
