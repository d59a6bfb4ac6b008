import Obcsw.Lifecycle

/-!
# Stop returns

`stop` waits for the loop, and the loop reads `m_running` only when it has found the queue
empty. Threads that go on calling `enqueue` meanwhile keep it at work : each accepted frame
costs the loop four more steps. Nothing else delays it (`stopEnds`) : with the flag cleared, a
run has no more steps than the frames in the queue and the calls made during it pay for, and
until `stop` returns there is always a thread that can go on without waiting for a caller.

`State.remaining` is the rank, and `Waiting.step` what one step does to it.
-/

set_option linter.unusedSectionVars false

namespace Obcsw

namespace Downlink

/-! ## The loops -/

section Loops

variable {Tid : Type} [DecidableEq Tid] {L : JsonLibrary} {cfg : DispatcherConfig}
  {s s' : State Tid} {l : Label Tid}

/-- With no loop attached, every loop has returned. -/
theorem Inv.exited_of_detached (hs : Inv cfg s) (h : s.m_thread = none) (i : ℕ) :
    s.loops i = .exited := by
  by_contra halive
  have hattached := hs.attached i halive
  rw [h] at hattached
  cases hattached

/-- Only a frame that does not serialize ends the process. -/
theorem serializing_of_terminated (hr : (system Tid L cfg).Reachable s)
    (hterm : s.terminated = false) (h : Step L cfg s l s') (hterm' : s'.terminated = true) :
    ∃ i frame, s.loops i = .serializing frame ∧
      ∃ e, TelemetrySerializer.toJson L frame = .error e := by
  cases h with
  | serializeThrows i frame e h herr => exact ⟨i, frame, h, e, herr⟩
  | spawnJoinable i h hthread =>
    rw [(sockets_reachable hr).spawning h] at hthread
    cases hthread
  | _ =>
    have hsame : s.terminated = true := hterm'
    rw [hterm] at hsame
    cases hsame

end Loops

/-! ## The steps left -/

/-- The steps of a loop until it returns, with the flag cleared and `n` frames in the queue. -/
def LoopPc.remaining (n : ℕ) : LoopPc → ℕ
  | exited => 0
  | check => 1
  | draining => 4 * n + 2
  | sleeping | counting _ _ => 4 * n + 3
  | sending _ _ => 4 * n + 4
  | serializing _ => 4 * n + 5

/-- The steps of `stop` itself. -/
def ControlPc.remaining : ControlPc → ℕ
  | joining => 2
  | closing => 1
  | _ => 0

section Threads

variable {Tid : Type} [DecidableEq Tid] {L : JsonLibrary} {cfg : DispatcherConfig}

/-- The steps until `stop` has returned, if nobody calls `enqueue`. -/
def State.remaining (s : State Tid) : ℕ :=
  if s.terminated then 0
  else s.control.remaining + match s.m_thread with
    | some i => (s.loops i).remaining s.dispatcher.m_queue.length
    | none => 0

/-- The steps a step of a caller may add, and itself. -/
def Label.pay : Label Tid → ℕ
  | call _ _ => 1
  | enqueue _ => 5
  | _ => 0

/-- `stop` has cleared the flag; it joins the loop, has joined it, or has returned. -/
structure Waiting (s : State Tid) : Prop where
  cleared : s.dispatcher.m_running = false
  control : s.control = .joining ∨ ((s.control = .closing ∨ s.control = .idle) ∧ s.m_thread = none)

theorem remaining_of_thread {s : State Tid} {i : ℕ} (hterm : s.terminated = false)
    (hthread : s.m_thread = some i) : s.remaining =
      s.control.remaining + (s.loops i).remaining s.dispatcher.m_queue.length := by
  rw [State.remaining, hterm, hthread]
  rfl

theorem remaining_of_detached {s : State Tid} (hterm : s.terminated = false)
    (hthread : s.m_thread = none) : s.remaining = s.control.remaining := by
  rw [State.remaining, hterm, hthread]
  rfl

theorem LoopPc.remaining_le (c : LoopPc) (n : ℕ) : c.remaining n ≤ 4 * n + 5 := by
  cases c <;> simp only [remaining] <;> omega

theorem LoopPc.remaining_succ_le (c : LoopPc) (n : ℕ) :
    c.remaining (n + 1) ≤ c.remaining n + 4 := by
  cases c <;> simp only [remaining] <;> omega

theorem State.remaining_le (s : State Tid) :
    s.remaining ≤ 4 * s.dispatcher.m_queue.length + 7 := by
  cases hterm : s.terminated with
  | true =>
    rw [State.remaining, hterm]
    exact Nat.zero_le _
  | false =>
    have hcontrol : s.control.remaining ≤ 2 := by
      cases s.control <;> simp [ControlPc.remaining]
    cases hthread : s.m_thread with
    | none =>
      rw [remaining_of_detached hterm hthread]
      omega
    | some i =>
      have hloop := (s.loops i).remaining_le s.dispatcher.m_queue.length
      rw [remaining_of_thread hterm hthread]
      omega

/-! ## One step -/

section Moves

variable {s s' : State Tid} (hs : Waiting s) (hterm : s.terminated = false)

include hs hterm

/-- A loop moves, and has fewer steps left. -/
theorem Waiting.move_loop (hinv : Inv cfg s) {i : ℕ} {c : LoopPc} (halive : s.loops i ≠ .exited)
    (hrun : s'.dispatcher.m_running = s.dispatcher.m_running) (hcontrol : s'.control = s.control)
    (hthread : s'.m_thread = s.m_thread) (hterm' : s'.terminated = s.terminated)
    (hloops : s'.loops = Function.update s.loops i c)
    (hless : c.remaining s'.dispatcher.m_queue.length + 1 ≤
      (s.loops i).remaining s.dispatcher.m_queue.length) :
    Waiting s' ∧ s'.remaining + 1 ≤ s.remaining := by
  have hattached := hinv.attached i halive
  refine ⟨⟨hrun.trans hs.cleared, ?_⟩, ?_⟩
  · rw [hcontrol, hthread]
    exact hs.control
  · rw [remaining_of_thread hterm hattached,
      remaining_of_thread (hterm'.trans hterm) (hthread.trans hattached), hcontrol, hloops,
      Function.update_self]
    omega

variable (s') in
/-- A caller puts at most one frame into the queue. -/
theorem Waiting.move_caller (hrun : s'.dispatcher.m_running = s.dispatcher.m_running)
    (hcontrol : s'.control = s.control) (hthread : s'.m_thread = s.m_thread)
    (hterm' : s'.terminated = s.terminated) (hloops : s'.loops = s.loops) {k : ℕ}
    (hlen : s'.dispatcher.m_queue.length = s.dispatcher.m_queue.length + k) (hk : k ≤ 1) :
    Waiting s' ∧ s'.remaining ≤ s.remaining + 4 * k := by
  refine ⟨⟨hrun.trans hs.cleared, ?_⟩, ?_⟩
  · rw [hcontrol, hthread]
    exact hs.control
  · cases hm : s.m_thread with
    | none =>
      rw [remaining_of_detached hterm hm,
        remaining_of_detached (hterm'.trans hterm) (hthread.trans hm), hcontrol]
      exact Nat.le_add_right _ _
    | some i =>
      have hone := (s.loops i).remaining_succ_le s.dispatcher.m_queue.length
      rw [remaining_of_thread hterm hm,
        remaining_of_thread (hterm'.trans hterm) (hthread.trans hm), hcontrol, hloops, hlen]
      obtain rfl | rfl : k = 0 ∨ k = 1 := by omega
      · exact Nat.le_refl _
      · omega

end Moves

theorem length_enqueue_le (d : Dispatcher) (frame : TelemetryFrame) :
    ∃ k ≤ 1, (d.enqueue cfg frame).2.m_queue.length = d.m_queue.length + k := by
  unfold Dispatcher.enqueue
  split
  · exact ⟨0, Nat.zero_le _, rfl⟩
  · exact ⟨1, Nat.le_refl _, List.length_append⟩

/-- Every step keeps `stop` waiting or lets it return, and what it adds to the steps left its
label pays for. -/
theorem Waiting.step {s s' : State Tid} {l : Label Tid} (hinv : Inv cfg s) (hs : Waiting s)
    (hterm : s.terminated = false) (h : Step L cfg s l s') (hl : l.callsControl = false) :
    Waiting s' ∧ s'.remaining + 1 ≤ s.remaining + l.pay := by
  have hcontrol := hs.control
  cases h with
  | start | stop => cases hl
  | call t frame h =>
    obtain ⟨hs', hle⟩ := hs.move_caller { s with
      callers := Function.update s.callers t (some frame) } hterm rfl rfl rfl rfl rfl
      (Nat.add_zero _).symm (Nat.zero_le 1)
    exact ⟨hs', Nat.succ_le_succ hle⟩
  | enqueue t frame h =>
    obtain ⟨k, hk, hlen⟩ := @length_enqueue_le cfg s.dispatcher frame
    obtain ⟨hs', hle⟩ := hs.move_caller ({ s with
      dispatcher := (s.dispatcher.enqueue cfg frame).2
      callers := Function.update s.callers t none }.record
        [if (s.dispatcher.enqueue cfg frame).1 then .accepted frame else .rejected frame])
      hterm (enqueue_m_running s.dispatcher frame) rfl rfl rfl rfl hlen hk
    refine ⟨hs', ?_⟩
    simp only [Label.pay]
    omega
  | startRunning h | startStopped h | socketFails _ h | socket _ h | raise h | spawnFails h
  | spawnJoinable _ h | spawn h | stopStopped h | stopRunning h | clear h =>
    simp [h] at hcontrol
  | joinNone h hthread =>
    refine ⟨⟨hs.cleared, Or.inr ⟨Or.inl rfl, hthread⟩⟩, ?_⟩
    rw [remaining_of_detached hterm hthread, h]
    exact Nat.le_of_eq (congrArg (· + 1) (remaining_of_detached hterm hthread))
  | join i h hthread hloop =>
    refine ⟨⟨hs.cleared, Or.inr ⟨Or.inl rfl, rfl⟩⟩, ?_⟩
    rw [remaining_of_thread hterm hthread, h, hloop]
    exact Nat.le_of_eq (congrArg (· + 1) (remaining_of_detached hterm rfl))
  | close h hfd | closeNone h hfd =>
    have hthread : s.m_thread = none := by simpa [h] using hcontrol
    refine ⟨⟨hs.cleared, Or.inr ⟨Or.inr rfl, hthread⟩⟩, ?_⟩
    rw [remaining_of_detached hterm hthread, h]
    exact Nat.le_of_eq (congrArg (· + 1) (remaining_of_detached hterm hthread))
  | check i h =>
    refine hs.move_loop hterm hinv (by simp [h]) rfl rfl rfl rfl rfl ?_
    rw [hs.cleared, h]
    exact Nat.le_refl 1
  | sleep i h =>
    refine hs.move_loop hterm hinv (by simp [h]) rfl rfl rfl rfl rfl ?_
    rw [h]
    exact Nat.le_refl _
  | drained i h hq =>
    refine hs.move_loop hterm hinv (by simp [h]) rfl rfl rfl rfl rfl ?_
    rw [h, hq]
    exact Nat.le_refl 2
  | pop i frame rest h hq =>
    refine hs.move_loop hterm hinv (by simp [h]) rfl rfl rfl rfl rfl ?_
    rw [h, hq, List.length_cons]
    simp only [LoopPc.remaining, State.record, State.toLoop]
    omega
  | serialize i frame payload h hok =>
    refine hs.move_loop hterm hinv (by simp [h]) rfl rfl rfl rfl rfl ?_
    rw [h]
    exact Nat.le_refl _
  | serializeThrows i frame e h herr =>
    have hattached := hinv.attached i (by simp [h])
    refine ⟨⟨hs.cleared, hcontrol⟩, ?_⟩
    rw [remaining_of_thread hterm hattached, h]
    simp only [State.remaining, LoopPc.remaining, if_true]
    omega
  | send i net frame payload h =>
    refine hs.move_loop hterm hinv (by simp [h]) rfl rfl rfl rfl rfl ?_
    rw [h]
    exact Nat.le_refl _
  | count i frame sent h =>
    refine hs.move_loop hterm hinv (by simp [h]) (by cases sent <;> rfl) rfl rfl rfl rfl ?_
    rw [h]
    cases sent <;> exact Nat.le_refl _

/-! ## Some thread can go on -/

/-- A step of the loop. -/
def Label.byLoop (i : ℕ) : Label Tid → Prop
  | loop j | send j _ => j = i
  | _ => False

/-- The label is a step of the control thread or of a loop, in the middle of what it does. -/
def Label.isOwn : Label Tid → Bool
  | control | loop _ | send _ _ => true
  | _ => false

theorem Label.isOwn_of_byLoop {l : Label Tid} {i : ℕ} (h : l.byLoop i) : l.isOwn = true := by
  cases l <;> first | rfl | exact absurd h not_false

/-- A loop that has not returned can go on. -/
theorem exists_loop_step {s : State Tid} (hterm : s.terminated = false) {i : ℕ}
    (halive : s.loops i ≠ .exited) :
    ∃ l : Label Tid, l.byLoop i ∧ (next L cfg s l).isSome = true := by
  cases h : s.loops i with
  | exited => exact absurd h halive
  | check | sleeping => exact ⟨.loop i, rfl, by simp [next, loopStep, hterm, h]⟩
  | counting frame sent => exact ⟨.loop i, rfl, by simp [next, loopStep, hterm, h]⟩
  | draining =>
    refine ⟨.loop i, rfl, ?_⟩
    cases hq : s.dispatcher.m_queue <;> simp [next, loopStep, hterm, h, hq]
  | serializing frame =>
    refine ⟨.loop i, rfl, ?_⟩
    cases hp : TelemetrySerializer.toJson L frame <;> simp [next, loopStep, hterm, h, hp]
  | sending frame payload =>
    exact ⟨.send i ⟨1, payload.length⟩, rfl, by simp [next, sendStep, hterm, h]⟩

/-- Until `stop` has returned, it or the loop it waits for can go on. -/
theorem Waiting.exists_step {s : State Tid} (hs : Waiting s) (hterm : s.terminated = false)
    (hidle : s.control ≠ .idle) :
    ∃ l : Label Tid, l.isOwn = true ∧ (next L cfg s l).isSome = true := by
  rcases hs.control with hjoin | ⟨hclosing | hc, -⟩
  · cases hthread : s.m_thread with
    | none => exact ⟨.control, rfl, by simp [next, controlStep, hterm, hjoin, hthread]⟩
    | some i =>
      by_cases hexit : s.loops i = .exited
      · exact ⟨.control, rfl, by simp [next, controlStep, hterm, hjoin, hthread, hexit]⟩
      · obtain ⟨l, hl, hnext⟩ := @exists_loop_step Tid _ L cfg s hterm i hexit
        exact ⟨l, Label.isOwn_of_byLoop hl, hnext⟩
  · refine ⟨.control, rfl, ?_⟩
    by_cases hfd : s.dispatcher.m_sock_fd ≥ 0 <;>
      simp [next, controlStep, hterm, hclosing, hfd]
  · exact absurd hc hidle

/-! ## The result -/

variable (L cfg) in
/-- `stop`, which has cleared the flag at `s`, ends. -/
structure StopEnds (s : State Tid) : Prop where
  /-- A run without another call of `start` or `stop` is no longer than the frames in the queue
  and the calls of `enqueue` pay for. -/
  bounded : ∀ ls s', (system Tid L cfg).Run s ls s' → (∀ l ∈ ls, l.callsControl = false) →
    ls.length ≤ 4 * s.dispatcher.m_queue.length + 7 + (ls.map Label.pay).sum
  /-- After any such run `stop` has returned, the process has ended, or a thread can go on
  without waiting for a caller. -/
  progress : ∀ ls s', (system Tid L cfg).Run s ls s' → (∀ l ∈ ls, l.callsControl = false) →
    s'.control = .idle ∨ s'.terminated = true ∨
      ∃ l s'', l.isOwn = true ∧ (system Tid L cfg).step s' l s''

theorem Waiting.run {s s' : State Tid} {ls : List (Label Tid)}
    (hr : (system Tid L cfg).Run s ls s') (hls : ∀ l ∈ ls, l.callsControl = false)
    (hs : Inv cfg s ∧ Waiting s) : Inv cfg s' ∧ Waiting s' := by
  refine hr.induct (I := fun s => Inv cfg s ∧ Waiting s) (P := fun l => l.callsControl = false)
    ?_ hls hs
  rintro s l s' hl ⟨hinv, hs⟩ h
  obtain ⟨hterm, hstep⟩ := step_of_next h
  exact ⟨hinv.step hstep, (hs.step hinv hterm hstep hl).1⟩

/-- Every `stop` that has cleared the flag ends. -/
theorem stopEnds {s : State Tid} (h : (system Tid L cfg).Reachable s)
    (hjoin : s.control = .joining) : StopEnds L cfg s := by
  have hinv := inv_reachable h
  have hknows := (sockets_reachable h).knows
  rw [hjoin] at hknows
  have hs : Waiting s := ⟨hknows.1, Or.inl hjoin⟩
  constructor
  · intro ls s' hr hls
    have hlower : ∀ (s : State Tid) (l : Label Tid) (s' : State Tid), l.callsControl = false →
        (Inv cfg s ∧ Waiting s) → (system Tid L cfg).step s l s' →
        (Inv cfg s' ∧ Waiting s') ∧ s'.remaining + 1 ≤ s.remaining + l.pay := by
      rintro s l s' hl ⟨hinv, hs⟩ h
      obtain ⟨hterm, hstep⟩ := step_of_next h
      obtain ⟨hs', hrank⟩ := hs.step hinv hterm hstep hl
      exact ⟨⟨hinv.step hstep, hs'⟩, hrank⟩
    have hlen := hr.length_le_of_rank hlower hls ⟨hinv, hs⟩
    have hle := s.remaining_le
    omega
  · intro ls s' hr hls
    obtain ⟨-, hs'⟩ := Waiting.run hr hls ⟨hinv, hs⟩
    by_cases hidle : s'.control = .idle
    · exact Or.inl hidle
    · cases hterm : s'.terminated with
      | true => exact Or.inr (Or.inl rfl)
      | false =>
        obtain ⟨l, hl, hsome⟩ := @Waiting.exists_step Tid _ L cfg s' hs' hterm hidle
        obtain ⟨s'', hnext⟩ := Option.isSome_iff_exists.mp hsome
        exact Or.inr (Or.inr ⟨l, s'', hl, hnext⟩)

end Threads

/-- The shutdown of a loop that sleeps, with one frame in the queue. -/
theorem stopEnds_asleepCleared : asleepCleared.control = .joining ∧
    StopEnds frameLibrary {} asleepCleared :=
  have hjoin : asleepCleared.control = .joining := by decide +kernel
  ⟨hjoin, stopEnds (shutdown_asleep.reachable.step shutdown_asleep.clear) hjoin⟩

end Downlink

end Obcsw
