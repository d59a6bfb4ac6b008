import Obcsw.QueueThreads

/-!
# The histories of the command queue

The calls of the threads, in the order of their bodies, are a history of the bounded FIFO
queue. The converse holds as well : any such history, with its calls dealt out to the threads
in any way, is the one of some run (`exists_rests`), in which the threads take turns. So mutex,
condition variable, timeouts and spurious wake-ups are invisible in the answers, and the queue
of the code is the bounded FIFO queue (`histories_iff`).
-/

set_option linter.unusedSectionVars false

open BoundedFifo (Applies fifo)

namespace Obcsw

namespace QueueThreads

section Histories

variable {Tid : Type} [Fintype Tid] [DecidableEq Tid] {m_max_depth : UInt32}
  {s : State Tid m_max_depth} {es : List (Entry Tid)} {q q' : List Command}

/-- No thread is in a method, but for one at `c`. -/
structure Turns (t : Tid) (c : Pc) (es : List (Entry Tid)) (queue : CommandQueue m_max_depth)
    (s : State Tid m_max_depth) : Prop where
  reachable : (system Tid m_max_depth).Reachable s
  pc : s.pc t = c
  idle : ∀ u, u ≠ t → s.pc u = .idle
  queue : s.queue = queue
  log : s.log = es

/-- No thread is in a method. -/
structure Rests (es : List (Entry Tid)) (queue : CommandQueue m_max_depth)
    (s : State Tid m_max_depth) : Prop where
  reachable : (system Tid m_max_depth).Reachable s
  idle : ∀ u, s.pc u = .idle
  free : s.mutex = none
  queue : s.queue = queue
  log : s.log = es

variable {t : Tid} {c c' : Pc} {queue queue' : CommandQueue m_max_depth}

/-- A step of the thread whose turn it is. -/
theorem Turns.step (h : Turns t c es queue s) {m : Move Tid} {s₁ : State Tid m_max_depth}
    {es' : List (Entry Tid)} (hnext : next s t m = some (s₁.move t c')) (hpc : s₁.pc = s.pc)
    (hqueue : s₁.queue = queue') (hlog : s₁.log = es') :
    Turns t c' es' queue' (s₁.move t c') := by
  refine ⟨h.reachable.step (i := (t, m)) hnext, State.move_pc_self .., fun u hu => ?_, hqueue, hlog⟩
  rw [State.move_pc_of_ne _ _ _ hu, hpc, h.idle u hu]

/-- A thread begins its turn, and gets the mutex. -/
theorem Rests.locked (h : Rests es queue s) (t : Tid) (call : Call) :
    ∃ s', Turns t (.locked call) es queue s' := by
  have hcall : next s t (.call call) = some (s.move t (.entering call)) := by
    simp [next, h.idle]
  have hstart : Turns t .idle es queue s :=
    ⟨h.reachable, h.idle t, fun u _ => h.idle u, h.queue, h.log⟩
  have hentering := hstart.step hcall rfl h.queue h.log
  have hlock : next (s.move t (.entering call)) t .lock =
      some ({ s.move t (.entering call) with mutex := some t }.move t (.locked call)) := by
    simp [next, h.free]
  exact ⟨_, hentering.step hlock rfl h.queue h.log⟩

/-- A thread with its answer ends its turn. -/
theorem Turns.leave {call : Call} {a : call.Answer} (h : Turns t (.leaving call a) es queue s) :
    ∃ s', Rests es queue s' := by
  have hunlock : next s t .unlock = some ({ s with
      mutex := none
      returned := s.returned ++ [Entry.mk t call a] }.move t .idle) := by
    simp [next, h.pc]
  have hidle := h.step hunlock rfl h.queue h.log
  refine ⟨_, hidle.reachable, fun u => ?_, rfl, hidle.queue, hidle.log⟩
  rcases eq_or_ne u t with rfl | hu
  · exact hidle.pc
  · exact hidle.idle u hu

theorem Turns.after {call : Call} {a : call.Answer}
    (h : Turns t (State.after call a) es queue s) : ∃ s', Rests es queue s' := by
  cases call with
  | push cmd =>
    cases a with
    | true =>
      -- No thread is parked, so there is none to notify.
      have hnone : canNotify s none = true := by
        refine decide_eq_true fun u => ?_
        rcases eq_or_ne u t with rfl | hu
        · rw [h.pc]
          rfl
        · rw [h.idle u hu]
          rfl
      have hpc : s.pc t = .notifying cmd := h.pc
      have hnotify : next s t (.notify none false) =
          some (s.move t (.leaving (.push cmd) true)) := by
        simp [next, hpc, hnone, release]
      exact (h.step hnotify rfl h.queue h.log).leave
    | false => exact h.leave
  | _ => exact h.leave

/-- The contents allow for one answer of a call. -/
theorem event_unique {cap : ℕ} {c : Call} {a a' : c.Answer} {q₁ q₂ : List Command}
    (h : Applies cap q (event c a) q₁) (h' : Applies cap q (event c a') q₂) :
    a = a' ∧ q₁ = q₂ := by
  have htake : ∀ {item item' : Option Command}, Applies cap q (.take item) q₁ →
      Applies cap q (.take item') q₂ → item = item' ∧ q₁ = q₂ := by
    intro item item' h h'
    rcases Applies.take_iff.mp h with ⟨hq, rfl, rfl⟩ | ⟨x, rfl, hq⟩ <;>
      rcases Applies.take_iff.mp h' with ⟨hq', rfl, rfl⟩ | ⟨x', rfl, hq'⟩
    · exact ⟨rfl, rfl⟩
    · rw [hq] at hq'
      cases hq'
    · rw [hq] at hq'
      cases hq'
    · obtain ⟨rfl, rfl⟩ := List.cons.inj (hq.symm.trans hq')
      exact ⟨rfl, rfl⟩
  cases c with
  | push cmd =>
    rcases Applies.put_iff.mp h with ⟨hlt, rfl, rfl⟩ | ⟨hle, rfl, rfl⟩ <;>
      rcases Applies.put_iff.mp h' with ⟨hlt', rfl, rfl⟩ | ⟨hle', rfl, rfl⟩
    · exact ⟨rfl, rfl⟩
    · omega
    · omega
    · exact ⟨rfl, rfl⟩
  | tryPop => exact htake h h'
  | popWait => exact htake h h'
  | empty =>
    obtain ⟨hb, rfl⟩ := Applies.isEmpty_iff.mp h
    obtain ⟨hb', rfl⟩ := Applies.isEmpty_iff.mp h'
    exact ⟨hb.trans hb'.symm, rfl⟩
  | size =>
    obtain ⟨hn, rfl⟩ := Applies.size_iff.mp h
    obtain ⟨hn', rfl⟩ := Applies.size_iff.mp h'
    exact ⟨UInt32.toNat_inj.mp (hn.trans hn'.symm), rfl⟩

/-- The thread whose turn it is makes a call that the queue answers. -/
theorem Rests.answer (h : Rests es queue s) (t : Tid) {call : Call} {a : call.Answer}
    (hbody : body queue call = some (a, queue')) :
    ∃ s', Rests (es ++ [⟨t, call, a⟩]) queue' s' := by
  obtain ⟨s₁, h₁⟩ := h.locked t call
  have hnext : next s₁ t .body =
      some ((s₁.answer t call a queue').move t (State.after call a)) := by
    simp [next, h₁.pc, h₁.queue, hbody]
  exact (h₁.step hnext rfl rfl (congrArg (· ++ _) h₁.log)).after

/-- The thread whose turn it is waits for a command until the time is over. -/
theorem Rests.timeout (h : Rests es queue s) (t : Tid) (hbody : body queue .popWait = none) :
    ∃ s', Rests (es ++ [⟨t, .popWait, none⟩]) queue s' := by
  obtain ⟨s₁, h₁⟩ := h.locked t .popWait
  have hpark : next s₁ t .body = some ({ s₁ with mutex := none }.move t .parked) := by
    simp [next, h₁.pc, h₁.queue, hbody, State.park]
  have h₂ := h₁.step hpark rfl h₁.queue h₁.log
  obtain ⟨s₂, hfree, h₂⟩ : ∃ s₂, s₂.mutex = none ∧ Turns t .parked es queue s₂ := ⟨_, rfl, h₂⟩
  have hwake : next s₂ t (.wake true) = some (s₂.move t (.released true)) := by
    simp [next, h₂.pc]
  have h₃ := h₂.step hwake rfl h₂.queue h₂.log
  have hlock : next (s₂.move t (.released true)) t .lock =
      some ({ s₂.move t (.released true) with mutex := some t }.move t (.rechecking true)) := by
    simp [next, hfree]
  obtain ⟨s₄, h₄⟩ : ∃ s₄, Turns t (.rechecking true) es queue s₄ :=
    ⟨_, h₃.step hlock rfl h₃.queue h₃.log⟩
  have hanswer : next s₄ t .body =
      some ((s₄.answer t .popWait none s₄.queue).move t (State.after .popWait none)) := by
    simp [next, h₄.pc, h₄.queue, hbody]
  exact (h₄.step hanswer rfl h₄.queue (congrArg (· ++ _) h₄.log)).after

/-- A thread makes any call, and gets the answer the bounded FIFO queue gives. -/
theorem Rests.turn (h : Rests es queue s) (e : Entry Tid)
    (he : Applies m_max_depth.toNat queue.m_queue (event e.call e.answer) q') :
    ∃ (queue' : CommandQueue m_max_depth) (s' : State Tid m_max_depth),
      queue'.m_queue = q' ∧ Rests (es ++ [e]) queue' s' := by
  obtain ⟨t, call, a⟩ := e
  rcases hbody : body queue call with _ | ⟨a', queue'⟩
  · -- Only a `popWait` on the empty queue has no answer at once.
    obtain ⟨rfl, hempty⟩ := body_eq_none hbody
    obtain ⟨s', h'⟩ := h.timeout t hbody
    obtain ⟨rfl, rfl⟩ := event_unique he (explains_timeout hempty).applies
    exact ⟨queue, s', rfl, h'⟩
  · obtain ⟨s', h'⟩ := h.answer t hbody
    obtain ⟨rfl, rfl⟩ := event_unique he (explains_body hbody).applies
    exact ⟨queue', s', rfl, h'⟩

/-- Every history of the bounded FIFO queue is one of threads that take turns. -/
theorem exists_rests (hr : (fifo Command m_max_depth.toNat).Run []
      (es.map fun e => event e.call e.answer) q) :
    ∃ (queue : CommandQueue m_max_depth) (s : State Tid m_max_depth),
      queue.m_queue = q ∧ Rests es queue s := by
  induction es using List.reverseRecOn generalizing q with
  | nil =>
    obtain rfl := Transitions.run_nil_iff.mp hr
    exact ⟨.init m_max_depth, .init Tid m_max_depth, rfl,
      ⟨Transitions.reachable_of_initial rfl, fun _ => rfl, rfl, rfl, rfl⟩⟩
  | append_singleton es e ih =>
    rw [List.map_append, List.map_singleton] at hr
    obtain ⟨q₁, q₂, hbefore, he, hrest⟩ := Transitions.run_split_iff.mp hr
    obtain rfl := Transitions.run_nil_iff.mp hrest
    obtain ⟨queue, s, rfl, h⟩ := ih hbefore
    exact h.turn e he

/-- The calls of the threads, in the order of their bodies and with their answers, can be these
and leave these commands exactly when they are a history of the bounded FIFO queue. -/
theorem histories_iff :
    (∃ s : State Tid m_max_depth, (system Tid m_max_depth).Reachable s ∧ s.log = es ∧
      s.queue.m_queue = q) ↔
    (fifo Command m_max_depth.toNat).Run [] (es.map fun e => event e.call e.answer) q := by
  constructor
  · rintro ⟨s, hr, rfl, rfl⟩
    obtain ⟨q, hq, hrun⟩ := refines.reachable hr
    obtain rfl : q = [] := hq
    exact hrun
  · intro hr
    obtain ⟨queue, s, rfl, h⟩ := exists_rests hr
    exact ⟨s, h.reachable, h.log, congrArg CommandQueue.m_queue h.queue⟩

end Histories

end QueueThreads

end Obcsw
