import Obcsw.Audit

/-!
# Outcomes

What can become of the frames. `enqueue` answers an iteration with true or false, and the loop
counts the frame it has sent, or failed to send. The scheduler and the sockets decide, but for
what the depth of the queue says : its first frames find room, and it holds back no more than
its depth and the frame in the hands of the loop (`possible_reachable`).

Nothing else is decided. Any answers and outcomes that keep to this are those of some run
(`exists_outcomes`) : the loop sleeps until the queue is full, and then makes room for one
frame. So these are exactly the losses the process can suffer (`outcomes_iff`), for any
measurements.
-/

set_option linter.unusedSectionVars false

open Program

namespace Obcsw

/-! ## Where the accepted frames are -/

namespace Downlink

section Threads

variable {Tid : Type} [DecidableEq Tid] {L : JsonLibrary} {cfg : DispatcherConfig} {s : State Tid}

/-- A frame in the hands of the loop is one that is not counted yet. -/
theorem inHand_length_le (s : State Tid) :
    s.uncountedOutcome.length + (s.inHand LoopPc.unhanded).length ≤ 1 := by
  unfold State.uncountedOutcome State.inHand
  cases s.m_thread with
  | none => exact Nat.zero_le 1
  | some i => cases hloop : s.loops i <;> simp [LoopPc.outcome, LoopPc.unhanded, hloop]

/-- An outcome is one of a frame handed to `sendUdp`. -/
theorem length_outcomes (hr : (system Tid L cfg).Reachable s) :
    (countedOutcomes s.log).length + s.uncountedOutcome.length =
      (handedPayloads s.log).length := by
  obtain ⟨_, ls, rfl, hrun⟩ := hr
  have haudited := audited_run hrun
  have hlen := congrArg List.length haudited.outcomes
  rwa [List.length_append, List.length_zipWith, haudited.answered, Nat.min_self] at hlen

/-- The accepted frames are counted, in the hands of the loop, or in the queue. -/
theorem count_answers (hr : (system Tid L cfg).Reachable s) :
    (BoundedFifo.answers (queueEvents s.log)).count true =
      (countedOutcomes s.log).length +
        (s.uncountedOutcome.length + (s.inHand LoopPc.unhanded).length) +
          s.dispatcher.m_queue.length := by
  have hinv := inv_reachable hr
  rw [BoundedFifo.count_answers, accepted_queueEvents, hinv.accepted, hinv.handed,
    List.length_append, List.length_append, ← Nat.add_assoc, length_outcomes hr,
    length_handedPayloads]

end Threads

end Downlink

namespace Process

open Downlink (LoopPc countedOutcomes queueEvents)
open Main
open Transitions (exec)

/-- Some process can have had these answers of `enqueue`, and these outcomes counted. -/
structure Possible (cfg : SatelliteConfig) (answers outcomes : List Bool) : Prop where
  /-- The first frames find room. -/
  fits : ∀ n, answers[n]? = some false → cfg.telemetry_max_frame_queue_depth.toNat ≤ n
  /-- Without room, no frame does. -/
  roomless : cfg.telemetry_max_frame_queue_depth.toNat = 0 → true ∉ answers
  /-- Only accepted frames are counted. -/
  counted : outcomes.length ≤ answers.count true
  /-- The others are in the queue, but for the one in the hands of the loop. -/
  kept : answers.count true ≤ outcomes.length + 1 + cfg.telemetry_max_frame_queue_depth.toNat
  /-- None is counted that does not serialize. -/
  encodable : outcomes ≠ [] → validUtf8 cfg.satellite_name = true

section Outcomes

variable {cfg : SatelliteConfig} {L : JsonLibrary} {uplinks : List Uplink} {s : State cfg}

/-! ## What every run keeps to -/

/-- The answers in the ticks are those of the telemetry queue. -/
theorem enqueued_eq (hbooks : Books s) :
    s.ticks.map Tick.enqueued = BoundedFifo.answers (queueEvents s.downlink.log) := by
  have hcalls := congrArg (List.map Prod.snd) hbooks.calls
  rw [List.map_snd_zip (by rw [length_due, List.length_map])] at hcalls
  rw [← hcalls, calls, queueEvents, BoundedFifo.answers, List.map_filterMap,
    List.filterMap_filterMap]
  refine List.filterMap_congr fun e _ => ?_
  cases e <;> rfl

theorem possible_reachable (hL : L.Lawful) (hr : (system cfg L uplinks).Reachable s) :
    Possible cfg (s.ticks.map Tick.enqueued) (countedOutcomes s.downlink.log) := by
  have hdown := downlink_reachable hr
  have hinv := Downlink.inv_reachable hdown
  have hhand := Downlink.inHand_length_le s.downlink
  have haccepted := Downlink.count_answers hdown
  rw [← enqueued_eq (books_reachable hr)] at haccepted
  constructor
  · intro n hn
    obtain ⟨q, hq, hrun⟩ := Downlink.refines_fifo.reachable hdown
    obtain rfl : q = [] := hq
    rw [enqueued_eq (books_reachable hr)] at hn
    exact BoundedFifo.run_refused hrun hn
  · intro hdepth
    rw [← List.count_eq_zero, enqueued_eq (books_reachable hr), BoundedFifo.count_answers,
      Downlink.accepted_queueEvents, Downlink.accepted_of_zero hdown hdepth]
    rfl
  · omega
  · have hbounded : s.downlink.dispatcher.m_queue.length ≤
        cfg.telemetry_max_frame_queue_depth.toNat := hinv.bounded
    omega
  · intro hne
    have hpos := List.length_pos_iff.mpr hne
    have hhanded := Downlink.length_outcomes hdown
    obtain ⟨payload, hpayload⟩ := List.exists_mem_of_length_pos
      (l := Downlink.handedPayloads s.downlink.log) (by omega)
    obtain ⟨fd, frame, hmem⟩ := exists_handed hpayload
    exact encodable_of_handed hL hr hmem

/-! ## A process that the scheduler steers -/

/-- A process between two iterations, with its loop at `c`. -/
structure Flies (L : JsonLibrary) (uplinks : List Uplink) (ticks : List Tick)
    (outcomes : List Bool) (queued : ℕ) (c : LoopPc) (s : State cfg) : Prop where
  reachable : (system cfg L uplinks).Reachable s
  looping : s.pc = .looping
  up : s.g_running = true
  ticks : s.ticks = ticks
  outcomes : countedOutcomes s.downlink.log = outcomes
  queued : s.downlink.dispatcher.m_queue.length = queued
  loop : s.downlink.loops 0 = c
  alive : s.downlink.terminated = false
  idle : s.downlink.callers () = none

variable {ticks : List Tick} {outcomes : List Bool} {queued : ℕ} {c : LoopPc}

/-- Before the first iteration, with the loop about to pop. -/
theorem exists_flies (cfg : SatelliteConfig) (L : JsonLibrary) (uplinks : List Uplink) :
    ∃ s : State cfg, Flies L uplinks [] [] 0 .draining s := by
  obtain ⟨s, hr, hpc, hup, hticks, hdown⟩ := looping_reachable cfg L uplinks
  have hloops : ∃ d, exec (Downlink.next L (dispatcherConfig cfg)) s.downlink
      ([0, 0].map .loop) = some d ∧ countedOutcomes d.log = [] ∧
      d.dispatcher.m_queue.length = 0 ∧ d.loops 0 = .draining ∧ d.terminated = false ∧
      d.callers () = none := by
    rw [hdown]
    simp [exec, Downlink.next, Downlink.loopStep, manned, Downlink.State.toLoop, countedOutcomes]
  obtain ⟨d, hd, hlog, hqueue, hloop, hterm, hcallers⟩ := hloops
  obtain ⟨ls, hls⟩ := @run_loops cfg L uplinks s (by rw [hpc]; rfl) _ d hd
  exact ⟨_, hr.run hls, hpc, hup, hticks, hlog, hqueue, hloop, hterm, hcallers⟩

/-- `enqueue` answers, and `main` goes on with its answer. -/
theorem next_enqueue {measure : UInt64 → Measurements} {frame : TelemetryFrame} {ok : Bool}
    {d : Dispatcher} (hterm : s.downlink.terminated = false) (hpc : s.pc = .enqueueing measure)
    (hcaller : s.downlink.callers () = some frame)
    (hd : s.downlink.dispatcher.enqueue (dispatcherConfig cfg) frame = (ok, d)) :
    next L uplinks s (.downlink (.enqueue ())) = some (State.answered { s with
      downlink := { s.downlink with
        dispatcher := d
        callers := Function.update s.downlink.callers () none }.record
          [if ok then .accepted frame else .rejected frame] } measure ok) := by
  cases ok <;>
    simp [next, hterm, hpc, Pc.ended, downlinkStep, Downlink.Label.isCall, downlinkNext,
      Downlink.next, Downlink.enqueueStep, hcaller, hd, Downlink.State.record, State.resume]

/-- The queue takes a frame as long as it is not full. -/
theorem enqueue_eq (d : Dispatcher) (frame : TelemetryFrame) : ∃ d',
    d.enqueue (dispatcherConfig cfg) frame =
      (decide (d.m_queue.length < cfg.telemetry_max_frame_queue_depth.toNat), d') ∧
    d'.m_queue.length = d.m_queue.length +
      (decide (d.m_queue.length < cfg.telemetry_max_frame_queue_depth.toNat)).toNat := by
  rcases Nat.lt_or_ge d.m_queue.length cfg.telemetry_max_frame_queue_depth.toNat with hlt | hge
  · rw [decide_eq_true hlt]
    exact ⟨_, if_neg (Nat.not_le.mpr hlt), List.length_append⟩
  · rw [decide_eq_false (Nat.not_lt.mpr hge)]
    exact ⟨_, if_pos hge, rfl⟩

/-- An iteration, in which `enqueue` answers as the length of the queue says. -/
theorem Flies.tick (hL : L.Lawful) (h : Flies L uplinks ticks outcomes queued c s) (tick : Tick)
    (htick : tick.enqueued = decide (queued < cfg.telemetry_max_frame_queue_depth.toNat)) :
    ∃ s' : State cfg, Flies L uplinks (ticks ++ [tick]) outcomes
      (queued + tick.enqueued.toNat) c s' := by
  obtain ⟨measure, enqueued⟩ := tick
  obtain rfl := htick
  obtain ⟨es, hprepare, -⟩ := prepare_returns s.vars measure
  rw [Prog.Returns] at hprepare
  generalize hv : evaluated s.vars (generateFrame (measure s.vars.frame_id)
    s.vars.frame_id cfg.satellite_name) = v at hprepare
  generalize hframe : stamped v (generateFrame (measure s.vars.frame_id)
    s.vars.frame_id cfg.satellite_name) = frame at hprepare
  have hcall : next L uplinks s (.iterate measure) =
      some { s.ran es v (.enqueueing measure) with
        downlink := { s.downlink with
          callers := Function.update s.downlink.callers () (some frame) } } := by
    simp [next, h.alive, h.idle, h.looping, h.up, Pc.ended, iterateStep, hprepare, call,
      downlinkNext, Downlink.next]
  obtain ⟨d, hd, hlen⟩ := @enqueue_eq cfg s.downlink.dispatcher frame
  rw [h.queued] at hd hlen
  have hcaller : Function.update s.downlink.callers () (some frame) () = some frame :=
    Function.update_self ..
  have hr := (h.reachable.step hcall).step (next_enqueue h.alive rfl hcaller hd)
  obtain ⟨es', v', hnext⟩ := next_concluding hL hr rfl h.alive
  have hidle : Function.update (Function.update s.downlink.callers () (some frame)) () none () =
      none := Function.update_self ..
  refine ⟨_, hr.step hnext, rfl, h.up, ?_, ?_, hlen, h.loop, h.alive, hidle⟩
  · exact congrArg (· ++ _) h.ticks
  · refine (Downlink.countedOutcomes_append _ _).trans ?_
    rw [State.ran, h.outcomes]
    split <;> exact List.append_nil _

/-- The loop pops a frame. -/
theorem Flies.pop (h : Flies L uplinks ticks outcomes (queued + 1) .draining s) :
    ∃ (s' : State cfg) (frame : TelemetryFrame),
      Flies L uplinks ticks outcomes queued (.serializing frame) s' := by
  have hend : s.pc.ended = false := by rw [h.looping]; rfl
  obtain ⟨frame, rest, hqueue⟩ := List.exists_cons_of_length_eq_add_one h.queued
  have hlen := h.queued
  rw [hqueue, List.length_cons, Nat.succ_inj] at hlen
  have hpop : Downlink.next L (dispatcherConfig cfg) s.downlink (.loop 0) =
      some (({ s.downlink with
        dispatcher := { s.downlink.dispatcher with m_queue := rest } }.toLoop 0
          (.serializing frame)).record [.popped frame]) := by
    simp [Downlink.next, h.alive, Downlink.loopStep, h.loop, hqueue]
  have hhand : Function.update s.downlink.loops 0 (.serializing frame) 0 = .serializing frame :=
    Function.update_self ..
  refine ⟨_, frame, h.reachable.step (next_loop hend hpop), h.looping, h.up, h.ticks, ?_, hlen,
    hhand, h.alive, h.idle⟩
  refine (Downlink.countedOutcomes_append _ _).trans ?_
  rw [Downlink.State.toLoop, h.outcomes]
  exact List.append_nil _

/-- What the sockets answer to let a datagram out, or not. -/
def socketCalls (sent : Bool) (payload : Bytes) : SocketCalls where
  inet_pton := if sent then 1 else 0
  sendto := payload.length

theorem delivered_socketCalls (sent : Bool) (payload : Bytes) :
    (socketCalls sent payload).delivered payload = sent := by
  cases sent <;> simp [socketCalls, SocketCalls.delivered]

/-- The loop serializes its frame, hands it over and counts it. -/
theorem Flies.count (hL : L.Lawful) {frame : TelemetryFrame}
    (hname : validUtf8 cfg.satellite_name = true)
    (h : Flies L uplinks ticks outcomes queued (.serializing frame) s) (sent : Bool) :
    ∃ s' : State cfg, Flies L uplinks ticks (outcomes ++ [sent]) queued .draining s' := by
  have hend : s.pc.ended = false := by rw [h.looping]; rfl
  have hmem := Downlink.accepted_of_serializing (downlink_reachable h.reachable) h.loop
  have hdue := (accepted_sublist (books_reachable h.reachable)).subset hmem
  obtain ⟨payload, hok⟩ := (TelemetrySerializer.toJson_ok_iff hL frame).mpr
    (by rw [satellite_id_of_due hdue, hname])
  have hserialize : Downlink.next L (dispatcherConfig cfg) s.downlink (.loop 0) =
      some (s.downlink.toLoop 0 (.sending frame payload)) := by
    simp [Downlink.next, h.alive, Downlink.loopStep, h.loop, hok]
  have hsend : Downlink.next L (dispatcherConfig cfg)
      (s.downlink.toLoop 0 (.sending frame payload)) (.send 0 (socketCalls sent payload)) =
        some (((s.downlink.toLoop 0 (.sending frame payload)).toLoop 0
          (.counting frame sent)).record
            [.handed s.downlink.dispatcher.m_sock_fd frame payload]) := by
    simp [Downlink.next, Downlink.sendStep, h.alive, Downlink.State.toLoop,
      delivered_socketCalls]
  have hcount : ∃ d, Downlink.next L (dispatcherConfig cfg)
      (((s.downlink.toLoop 0 (.sending frame payload)).toLoop 0 (.counting frame sent)).record
        [.handed s.downlink.dispatcher.m_sock_fd frame payload]) (.loop 0) = some d ∧
      countedOutcomes d.log = outcomes ++ [sent] ∧ d.dispatcher.m_queue.length = queued ∧
      d.loops 0 = .draining ∧ d.terminated = false ∧ d.callers () = none := by
    cases sent <;>
      simp [Downlink.next, Downlink.loopStep, Downlink.State.record, Downlink.State.toLoop,
        TelemetryDispatcher.counted, Downlink.countedOutcomes_append, h.alive, h.idle, h.queued,
        h.outcomes] <;> rfl
  obtain ⟨d, hcounted, houtcomes, hqueued, hloop, hterm, hidle⟩ := hcount
  have hr := (h.reachable.step (next_loop hend hserialize)).step
    (next_still hend rfl hsend rfl (by simp [answers]))
  exact ⟨_, hr.step (next_loop hend hcounted), h.looping, h.up, h.ticks, houtcomes, hqueued, hloop,
    hterm, hidle⟩

/-- The loop takes frames out of the queue, and counts them with any outcomes. -/
theorem Flies.drain (hL : L.Lawful) (hname : validUtf8 cfg.satellite_name = true)
    {more : List Bool} (h : Flies L uplinks ticks outcomes (queued + more.length) .draining s) :
    ∃ s' : State cfg, Flies L uplinks ticks (outcomes ++ more) queued .draining s' := by
  induction more generalizing s outcomes with
  | nil => exact ⟨s, by rwa [List.append_nil]⟩
  | cons sent more ih =>
    obtain ⟨s₁, frame, h₁⟩ := Flies.pop h
    obtain ⟨s₂, h₂⟩ := h₁.count hL hname sent
    obtain ⟨s₃, h₃⟩ := ih h₂
    exact ⟨s₃, by rwa [List.append_assoc] at h₃⟩

/-! ## Every possible outcome -/

/-- When no frame is refused before `d` ones, and there are `d` of them, `d` are accepted. -/
theorem le_count_of_fits {answers : List Bool} {d : ℕ}
    (hfits : ∀ n, answers[n]? = some false → d ≤ n) (hlen : d ≤ answers.length) :
    d ≤ answers.count true := by
  have hall : (answers.take d).count true = (answers.take d).length := by
    refine List.count_eq_length.mpr fun b hb => ?_
    obtain ⟨n, hn⟩ := List.mem_iff_getElem?.mp hb
    rw [List.getElem?_take] at hn
    split at hn
    · next hlt =>
      cases b with
      | true => rfl
      | false => exact absurd (hfits n hn) (Nat.not_le.mpr hlt)
    · cases hn
  calc d = (answers.take d).length := (List.length_take_of_le hlen).symm
    _ = (answers.take d).count true := hall.symm
    _ ≤ answers.count true := (List.take_sublist d answers).count_le true

/-- Where the loop stands with so many frames popped, and all of them counted but the last. -/
def Popped : ℕ → LoopPc → Prop
  | 0, c => c = .draining
  | _ + 1, c => ∃ frame, c = .serializing frame

/-- The loop counts the last frame it has popped. -/
theorem Flies.settle (hL : L.Lawful) {n : ℕ}
    (h : Flies L uplinks ticks (outcomes.take (n - 1)) queued c s)
    (hc : Popped n c) (hn : n ≤ outcomes.length)
    (hencodable : outcomes ≠ [] → validUtf8 cfg.satellite_name = true) :
    ∃ s' : State cfg, Flies L uplinks ticks (outcomes.take n) queued .draining s' := by
  cases n with
  | zero =>
    obtain rfl : c = .draining := hc
    exact ⟨s, h⟩
  | succ n =>
    obtain ⟨frame, rfl⟩ := hc
    obtain ⟨s', h'⟩ := h.count hL (hencodable (List.ne_nil_of_length_pos (by omega))) outcomes[n]
    rw [Nat.add_sub_cancel, List.take_concat_get'] at h'
    exact ⟨s', h'⟩

/-- The number of frames accepted in some iterations. -/
def acceptedIn (ticks : List Tick) : ℕ :=
  (ticks.map Tick.enqueued).count true

theorem acceptedIn_snoc (ticks : List Tick) (tick : Tick) :
    acceptedIn (ticks ++ [tick]) = acceptedIn ticks + tick.enqueued.toNat := by
  rw [acceptedIn, acceptedIn, List.map_append, List.count_append]
  cases htick : tick.enqueued <;> simp [htick]

/-- A process whose loop waits until the queue is full, and then makes room for one frame. -/
def Lazy (L : JsonLibrary) (uplinks : List Uplink) (ticks : List Tick) (outcomes : List Bool)
    (s : State cfg) : Prop :=
  ∃ c, Flies L uplinks ticks
      (outcomes.take (acceptedIn ticks - cfg.telemetry_max_frame_queue_depth.toNat - 1))
      (min (acceptedIn ticks) cfg.telemetry_max_frame_queue_depth.toNat) c s ∧
    Popped (acceptedIn ticks - cfg.telemetry_max_frame_queue_depth.toNat) c

/-- Its queue is full, and a frame is refused. -/
theorem Lazy.refuse (hL : L.Lawful) (h : Lazy L uplinks ticks outcomes s) {tick : Tick}
    (htick : tick.enqueued = false)
    (hfull : cfg.telemetry_max_frame_queue_depth.toNat ≤ acceptedIn ticks) :
    ∃ s' : State cfg, Lazy L uplinks (ticks ++ [tick]) outcomes s' := by
  obtain ⟨c, h, hc⟩ := h
  rw [Nat.min_eq_right hfull] at h
  obtain ⟨s', h'⟩ := h.tick hL tick (by simp [htick])
  refine ⟨s', c, ?_, ?_⟩
  · rw [acceptedIn_snoc, htick, Bool.toNat_false, Nat.add_zero, Nat.min_eq_right hfull]
    rwa [htick] at h'
  · rwa [acceptedIn_snoc, htick]

/-- Its queue has room, or gets it, and a frame is accepted. -/
theorem Lazy.accept (hL : L.Lawful)
    (hencodable : outcomes ≠ [] → validUtf8 cfg.satellite_name = true)
    (h : Lazy L uplinks ticks outcomes s) {tick : Tick} (htick : tick.enqueued = true)
    (hroom : cfg.telemetry_max_frame_queue_depth.toNat ≠ 0)
    (hkept : acceptedIn ticks ≤ outcomes.length + cfg.telemetry_max_frame_queue_depth.toNat) :
    ∃ s' : State cfg, Lazy L uplinks (ticks ++ [tick]) outcomes s' := by
  obtain ⟨c, h, hc⟩ := h
  unfold Lazy
  rw [acceptedIn_snoc, htick, Bool.toNat_true]
  generalize acceptedIn ticks = k at h hc hkept ⊢
  generalize hd : cfg.telemetry_max_frame_queue_depth.toNat = d at h hc hkept hroom ⊢
  rcases Nat.lt_or_ge k d with hlt | hge
  · have hnone : k - d = 0 := by omega
    have hnone' : k + 1 - d = 0 := by omega
    rw [hnone] at h hc
    rw [Nat.min_eq_left hlt.le] at h
    obtain ⟨s', h'⟩ := h.tick hL tick (by simp [htick, hd, hlt])
    refine ⟨s', c, ?_, by rwa [hnone']⟩
    rw [hnone', Nat.min_eq_left hlt]
    rwa [htick] at h'
  · -- The loop counts the frame in its hands, and takes the next one.
    obtain ⟨s₁, h₁⟩ := h.settle hL hc (by omega) hencodable
    rw [Nat.min_eq_right hge, ← Nat.sub_one_add_one hroom] at h₁
    obtain ⟨s₂, frame, h₂⟩ := h₁.pop
    obtain ⟨s₃, h₃⟩ := h₂.tick hL tick
      (by rw [htick, hd, decide_eq_true (Nat.sub_one_lt hroom)])
    rw [htick, Bool.toNat_true, Nat.sub_one_add_one hroom] at h₃
    have hpopped : k + 1 - d = k - d + 1 := by omega
    refine ⟨s₃, .serializing frame, ?_, ?_⟩
    · rwa [hpopped, Nat.add_sub_cancel, Nat.min_eq_right (by omega)]
    · rw [hpopped]
      exact ⟨frame, rfl⟩

/-- Any ticks that find room can be gone through like this. -/
theorem exists_lazy (hL : L.Lawful)
    (hencodable : outcomes ≠ [] → validUtf8 cfg.satellite_name = true)
    (hfits : ∀ n, (ticks.map Tick.enqueued)[n]? = some false →
      cfg.telemetry_max_frame_queue_depth.toNat ≤ n)
    (hroomless : cfg.telemetry_max_frame_queue_depth.toNat = 0 → true ∉ ticks.map Tick.enqueued)
    (hkept : acceptedIn ticks ≤
      outcomes.length + 1 + cfg.telemetry_max_frame_queue_depth.toNat) :
    ∃ s : State cfg, Lazy L uplinks ticks outcomes s := by
  induction ticks using List.reverseRecOn with
  | nil =>
    obtain ⟨s, h⟩ := exists_flies cfg L uplinks
    have hnone : acceptedIn [] = 0 := rfl
    refine ⟨s, .draining, ?_, ?_⟩
    · rwa [hnone, Nat.zero_sub, Nat.zero_sub, List.take_zero, Nat.zero_min]
    · rw [hnone, Nat.zero_sub]
      rfl
  | append_singleton ticks tick ih =>
    rw [List.map_append, List.map_singleton] at hfits hroomless
    rw [acceptedIn_snoc] at hkept
    have hfits' : ∀ n, (ticks.map Tick.enqueued)[n]? = some false →
        cfg.telemetry_max_frame_queue_depth.toNat ≤ n := by
      intro n hn
      refine hfits n ?_
      rwa [List.getElem?_append_left (List.getElem?_eq_some_iff.mp hn).1]
    obtain ⟨s, h⟩ := ih hfits' (fun hzero hmem => hroomless hzero
      (List.mem_append_left _ hmem)) (by omega)
    cases htick : tick.enqueued with
    | false =>
      refine h.refuse hL htick (le_count_of_fits hfits' (hfits _ ?_))
      rw [List.getElem?_append_right (Nat.le_refl _), Nat.sub_self, htick]
      rfl
    | true =>
      rw [htick, Bool.toNat_true] at hkept
      refine h.accept hL hencodable htick (fun hzero => ?_) (by omega)
      exact hroomless hzero (by simp [htick])

/-- The loop can have counted as many frames as there are outcomes, with the others in the
queue. -/
theorem exists_drained (hL : L.Lawful) (h : Possible cfg (ticks.map Tick.enqueued) outcomes)
    (hkept : acceptedIn ticks ≤ outcomes.length + cfg.telemetry_max_frame_queue_depth.toNat) :
    ∃ s : State cfg, Flies L uplinks ticks outcomes (acceptedIn ticks - outcomes.length)
      .draining s := by
  obtain ⟨s, c, hs, hc⟩ := @exists_lazy cfg L uplinks ticks outcomes hL h.encodable h.fits
    h.roomless h.kept
  obtain ⟨s₁, h₁⟩ := hs.settle hL hc (by omega) h.encodable
  have hcounted : outcomes.length ≤ acceptedIn ticks := h.counted
  generalize acceptedIn ticks = k at h₁ hcounted hkept ⊢
  generalize cfg.telemetry_max_frame_queue_depth.toNat = d at h₁ hkept
  have hqueued : min k d = k - outcomes.length + (outcomes.drop (k - d)).length := by
    rw [List.length_drop]
    omega
  rw [hqueued] at h₁
  rcases List.eq_nil_or_concat outcomes with rfl | ⟨_, _, hne⟩
  · exact ⟨s₁, by simpa using h₁⟩
  · obtain ⟨s₂, h₂⟩ := h₁.drain hL (h.encodable (by simp [hne]))
    rw [List.take_append_drop] at h₂
    exact ⟨s₂, h₂⟩

theorem exists_outcomes (hL : L.Lawful)
    (h : Possible cfg (ticks.map Tick.enqueued) outcomes) :
    ∃ s : State cfg, (system cfg L uplinks).Reachable s ∧ s.ticks = ticks ∧
      countedOutcomes s.downlink.log = outcomes := by
  rcases Nat.lt_or_ge (outcomes.length + cfg.telemetry_max_frame_queue_depth.toNat)
    (acceptedIn ticks) with hlt | hge
  · -- The last frame popped stays in the hands of the loop.
    obtain ⟨s, c, hs, -⟩ := @exists_lazy cfg L uplinks ticks outcomes hL h.encodable h.fits
      h.roomless h.kept
    rw [List.take_of_length_le (by omega)] at hs
    exact ⟨s, hs.reachable, hs.ticks, hs.outcomes⟩
  · obtain ⟨s, hs⟩ := exists_drained hL h hge
    exact ⟨s, hs.reachable, hs.ticks, hs.outcomes⟩

/-- The iterations of some process, with their measurements and the answers of `enqueue`, and
its outcomes are these exactly when they are possible. -/
theorem outcomes_iff (hL : L.Lawful) :
    (∃ s : State cfg, (system cfg L uplinks).Reachable s ∧ s.ticks = ticks ∧
      countedOutcomes s.downlink.log = outcomes) ↔
    Possible cfg (ticks.map Tick.enqueued) outcomes := by
  constructor
  · rintro ⟨s, hr, rfl, rfl⟩
    exact possible_reachable hL hr
  · exact exists_outcomes hL

end Outcomes

/-- With room for one frame, the second of three can be lost, and the first not sent. -/
theorem outcomes_shallow :
    ∃ s : State { telemetry_max_frame_queue_depth := 1 },
      (system { telemetry_max_frame_queue_depth := 1 } firstLibrary []).Reachable s ∧
        s.ticks = [.simulated {} true, .simulated {} false, .simulated {} true] ∧
        countedOutcomes s.downlink.log = [false] :=
  (outcomes_iff (JsonLibrary.pinned_lawful (by decide))).mpr {
    fits := fun n hn => Nat.pos_of_ne_zero (by rintro rfl; cases hn)
    roomless := by decide
    counted := by decide
    kept := by decide
    encodable := fun _ => by decide +kernel }

end Process

end Obcsw
