import Obcsw.Outcomes

/-!
# Final outcomes

`stop` does not flush the queue. A loop that reads a lowered `m_running` returns at once, and
the frames accepted since it last found the queue empty are neither sent nor dropped. So the
answers of `enqueue` end with those of a queueful of lost frames, and of the refusals by the
full queue (`leaves_reachable`). With that they are exactly the ones a process can end with
(`finals_iff`).
-/

set_option linter.unusedSectionVars false

open Program

namespace Obcsw

/-! ## What a loop that pauses leaves -/

namespace Downlink

section Threads

variable {Tid : Type} [DecidableEq Tid] {L : JsonLibrary} {cfg : DispatcherConfig}
  {s s' : State Tid}

/-- No loop is on its way to the queue, or at it. -/
def Pauses (s : State Tid) : Prop :=
  ∀ i, s.m_thread = some i → s.loops i = .check ∨ s.loops i = .exited

/-- The answers of frames counted, of the ones in the queue, and of refusals by the full
queue. -/
def Leaves (cfg : DispatcherConfig) (s : State Tid) : Prop :=
  ∃ (before : List Bool) (refused : ℕ),
    BoundedFifo.answers (queueEvents s.log) = before ++
      (.replicate s.dispatcher.m_queue.length true ++ .replicate refused false) ∧
    (refused ≠ 0 → s.dispatcher.m_queue.length = cfg.max_queue_depth.toNat) ∧
    (countedOutcomes s.log).length = before.count true

/-- Without a frame put, popped or counted. -/
theorem Leaves.keep (h : Leaves cfg s) {es : List Effect} (hlog : s'.log = s.log ++ es)
    (hqueue : s'.dispatcher.m_queue = s.dispatcher.m_queue)
    (hevents : queueEvents es = []) (houtcomes : countedOutcomes es = []) : Leaves cfg s' := by
  unfold Leaves
  rw [hlog, hqueue, queueEvents_append, countedOutcomes_append, hevents, houtcomes,
    List.append_nil, List.append_nil]
  exact h

/-- A frame is put, or refused by the full queue. -/
theorem Leaves.enqueue (h : Leaves cfg s) (hinv : Inv cfg s) (frame : TelemetryFrame)
    (callers : Tid → Option TelemetryFrame) :
    Leaves cfg ({ s with
      dispatcher := (s.dispatcher.enqueue cfg frame).2
      callers := callers }.record
        [if (s.dispatcher.enqueue cfg frame).1 then .accepted frame else .rejected frame]) := by
  obtain ⟨before, refused, hanswers, hrefused, hcounted⟩ := h
  unfold Leaves State.record Dispatcher.enqueue
  rcases Nat.lt_or_ge s.dispatcher.m_queue.length cfg.max_queue_depth.toNat with hlt | hge
  · obtain rfl : refused = 0 := by
      by_contra hne
      exact absurd (hrefused hne) (Nat.ne_of_lt hlt)
    rw [if_neg (Nat.not_le.mpr hlt)]
    refine ⟨before, 0, ?_, fun hne => absurd rfl hne, ?_⟩
    · rw [if_pos rfl, queueEvents_append, BoundedFifo.answers_append, hanswers, List.length_append,
        List.length_singleton, List.replicate_succ']
      simp [queueEvents, BoundedFifo.answers]
    · rw [if_pos rfl, countedOutcomes_append, ← hcounted]
      exact congrArg List.length (List.append_nil _)
  · rw [if_pos hge]
    refine ⟨before, refused + 1, ?_, fun _ => Nat.le_antisymm hinv.bounded hge, ?_⟩
    · rw [if_neg Bool.false_ne_true, queueEvents_append, BoundedFifo.answers_append, hanswers,
        List.replicate_succ']
      simp [queueEvents, BoundedFifo.answers]
    · rw [if_neg Bool.false_ne_true, countedOutcomes_append, ← hcounted]
      exact congrArg List.length (List.append_nil _)

/-- A loop that has found the queue empty has counted every frame accepted. -/
theorem leaves_of_drained (hr : (system Tid L cfg).Reachable s) {i : ℕ}
    (hloop : s.loops i = .draining) (hqueue : s.dispatcher.m_queue = []) :
    Leaves cfg (s.toLoop i .check) := by
  have hthread := (inv_reachable hr).attached i (by rw [hloop]; simp)
  have haccepted := count_answers hr
  rw [uncountedOutcome_of_attached hthread hloop, State.inHand, hthread, hqueue] at haccepted
  simp only [hloop] at haccepted
  refine ⟨BoundedFifo.answers (queueEvents s.log), 0, ?_, fun hne => absurd rfl hne, ?_⟩
  · simp [State.toLoop, hqueue]
  · simpa [State.toLoop, LoopPc.outcome, LoopPc.unhanded] using haccepted.symm

/-- A loop that has moved has moved to where it pauses. -/
theorem Pauses.of_update (h : Pauses s') {i : ℕ} {c : LoopPc} (hthread : s'.m_thread = some i)
    (hloops : s'.loops = Function.update s.loops i c) : c = .check ∨ c = .exited := by
  have hi := h i hthread
  rwa [hloops, Function.update_self] at hi

theorem leaves_of_step {l : Label Tid} (hr : (system Tid L cfg).Reachable s)
    (hs : Pauses s → Leaves cfg s) (h : Step L cfg s l s') (hpauses : Pauses s') :
    Leaves cfg s' := by
  have hinv := inv_reachable hr
  cases h with
  | enqueue t frame h => exact (hs hpauses).enqueue hinv frame _
  | spawn h hthread =>
    exact (hs fun i hi => by rw [hthread] at hi; cases hi).keep rfl rfl rfl rfl
  | join i h hthread hloop =>
    refine (hs fun j hj => ?_).keep (List.append_nil _).symm rfl rfl rfl
    rw [hthread] at hj
    obtain rfl := Option.some.inj hj
    exact Or.inr hloop
  | check i h =>
    have hthread := hinv.attached i (by rw [h]; simp)
    refine (hs fun j hj => ?_).keep (List.append_nil _).symm rfl rfl rfl
    rw [hthread] at hj
    obtain rfl := Option.some.inj hj
    exact Or.inl h
  | drained i h hq => exact leaves_of_drained hr h hq
  | sleep i h | pop i frame rest h hq | serialize i frame payload h hok | send i net frame payload h
  | count i frame sent h =>
    have hthread := hinv.attached i (by rw [h]; simp)
    rcases hpauses.of_update hthread rfl with hc | hc <;> cases hc
  | _ =>
    first
    | exact (hs hpauses).keep (List.append_nil _).symm rfl rfl rfl
    | exact (hs hpauses).keep rfl rfl rfl rfl

/-- Whenever no loop is on its way to the queue, the frames in the queue are those accepted
last, and every other accepted one has been counted. -/
theorem leaves_reachable (hr : (system Tid L cfg).Reachable s) (hpauses : Pauses s) :
    Leaves cfg s := by
  revert hpauses
  refine hr.induct (I := fun s => Pauses s → Leaves cfg s) (fun s hs _ => ?_)
    fun s l s' hr hs hstep => leaves_of_step hr hs (step_of_next hstep).2
  obtain rfl : s = {} := hs
  exact ⟨[], 0, rfl, fun hne => absurd rfl hne, rfl⟩

end Threads

end Downlink

/-! ## What a process ends with -/

namespace Process

open Downlink (LoopPc countedOutcomes queueEvents)
open Main
open Transitions (exec)

/-- A process can end with these answers of `enqueue` and these outcomes, when the loop last
found the queue empty after the answers `before`. -/
structure Final (cfg : SatelliteConfig) (answers outcomes before : List Bool)
    (queued refused : ℕ) : Prop where
  answers : answers = before ++ (.replicate queued true ++ .replicate refused false)
  /-- The frames accepted since then are lost. -/
  lost : queued ≤ cfg.telemetry_max_frame_queue_depth.toNat
  /-- One is refused only after the queue is full of them. -/
  full : refused ≠ 0 → queued = cfg.telemetry_max_frame_queue_depth.toNat
  /-- Every frame accepted before has been counted. -/
  counted : outcomes.length = before.count true
  possible : Possible cfg before outcomes

section Finals

variable {cfg : SatelliteConfig} {L : JsonLibrary} {uplinks : List Uplink} {s : State cfg}
  {ticks : List Tick} {outcomes : List Bool} {queued : ℕ} {c : LoopPc}

theorem final_of_exited (hL : L.Lawful) (hr : (system cfg L uplinks).Reachable s)
    (hexit : s.pc = .exited) : ∃ before queued refused, Final cfg (s.ticks.map Tick.enqueued)
      (countedOutcomes s.downlink.log) before queued refused := by
  have hdown := downlink_reachable hr
  have hknows := knows_reachable hr
  rw [Knows, hexit] at hknows
  obtain ⟨hcontrol, hrun, -⟩ := hknows
  have hthread : s.downlink.m_thread = none :=
    (Downlink.live_reachable hdown).detached hrun (by rw [hcontrol]; simp)
  obtain ⟨before, refused, hanswers, hfull, hcounted⟩ :=
    Downlink.leaves_reachable hdown fun i hi => by rw [hthread] at hi; cases hi
  have hpossible := possible_reachable hL hr
  rw [← enqueued_eq (books_reachable hr)] at hanswers
  refine ⟨before, _, refused, hanswers, (Downlink.inv_reachable hdown).bounded, hfull, hcounted,
    ?_⟩
  rw [hanswers] at hpossible
  exact {
    fits := fun n hn => hpossible.fits n <| by
      rwa [List.getElem?_append_left (List.getElem?_eq_some_iff.mp hn).1]
    roomless := fun hzero hmem => hpossible.roomless hzero (List.mem_append_left _ hmem)
    counted := hcounted.le
    kept := by omega
    encodable := hpossible.encodable }

/-! ## A process that ends -/

/-- The loop finds the queue empty. -/
theorem Flies.pause (h : Flies L uplinks ticks outcomes 0 .draining s) :
    ∃ s' : State cfg, Flies L uplinks ticks outcomes 0 .check s' := by
  have hend : s.pc.ended = false := by rw [h.looping]; rfl
  have hdrained : Downlink.next L (dispatcherConfig cfg) s.downlink (.loop 0) =
      some (s.downlink.toLoop 0 .check) := by
    simp [Downlink.next, h.alive, Downlink.loopStep, h.loop, List.length_eq_zero_iff.mp h.queued]
  have hloop : Function.update s.downlink.loops 0 .check 0 = .check := Function.update_self ..
  exact ⟨_, h.reachable.step (next_loop hend hdrained), h.looping, h.up, h.ticks, h.outcomes,
    h.queued, hloop, h.alive, h.idle⟩

/-- Frames are accepted while the loop does nothing. -/
theorem Flies.accept_all (hL : L.Lawful) {more : List Tick}
    (h : Flies L uplinks ticks outcomes queued c s)
    (hmore : ∀ tick ∈ more, tick.enqueued = true)
    (hroom : queued + more.length ≤ cfg.telemetry_max_frame_queue_depth.toNat) :
    ∃ s' : State cfg, Flies L uplinks (ticks ++ more) outcomes (queued + more.length) c s' := by
  induction more generalizing s ticks queued with
  | nil => exact ⟨s, by rwa [List.append_nil]⟩
  | cons tick more ih =>
    have htick := hmore tick List.mem_cons_self
    rw [List.length_cons, Nat.add_comm more.length, ← Nat.add_assoc] at hroom ⊢
    have hlt : queued < cfg.telemetry_max_frame_queue_depth.toNat := by omega
    obtain ⟨s₁, h₁⟩ := h.tick hL tick (by rw [htick, decide_eq_true hlt])
    rw [htick] at h₁
    obtain ⟨s₂, h₂⟩ := ih h₁ (fun t ht => hmore t (List.mem_cons_of_mem _ ht)) hroom
    exact ⟨s₂, by rwa [List.append_assoc] at h₂⟩

/-- Frames are refused by the full queue. -/
theorem Flies.refuse_all (hL : L.Lawful) {more : List Tick}
    (h : Flies L uplinks ticks outcomes queued c s)
    (hmore : ∀ tick ∈ more, tick.enqueued = false)
    (hfull : more ≠ [] → queued = cfg.telemetry_max_frame_queue_depth.toNat) :
    ∃ s' : State cfg, Flies L uplinks (ticks ++ more) outcomes queued c s' := by
  induction more generalizing s ticks with
  | nil => exact ⟨s, by rwa [List.append_nil]⟩
  | cons tick more ih =>
    have htick := hmore tick List.mem_cons_self
    have hqueued := hfull (List.cons_ne_nil tick more)
    obtain ⟨s₁, h₁⟩ := h.tick hL tick (by rw [htick, hqueued, decide_eq_false
      (Nat.lt_irrefl _)])
    rw [htick] at h₁
    obtain ⟨s₂, h₂⟩ := ih h₁ (fun t ht => hmore t (List.mem_cons_of_mem _ ht)) fun _ => hqueued
    exact ⟨s₂, by rwa [List.append_assoc] at h₂⟩

/-- A signal comes, and `main` gets to its end while the loop, about to read the flag, leaves
the queue alone. -/
theorem Flies.land (h : Flies L uplinks ticks outcomes queued .check s) :
    ∃ s' : State cfg, (system cfg L uplinks).Reachable s' ∧ s'.pc = .exited ∧ s'.ticks = ticks ∧
      countedOutcomes s'.downlink.log = outcomes := by
  have hknows := knows_reachable h.reachable
  rw [Knows, h.looping] at hknows
  obtain ⟨hcontrol, hrun, -⟩ := hknows
  have hthread := (Downlink.inv_reachable (downlink_reachable h.reachable)).attached 0
    (by rw [h.loop]; simp)
  have hexec : ∃ s', exec (next L uplinks) s [.signal, .main, .downlink .control,
      .downlink .control, .downlink (.loop 0), .downlink .control, .downlink .control, .main,
      .downlink .control] = some s' ∧ s'.pc = .exited ∧ s'.ticks = ticks ∧
      countedOutcomes s'.downlink.log = outcomes := by
    by_cases hfd : 0 ≤ s.downlink.dispatcher.m_sock_fd <;>
      simp [exec, next, h.alive, h.looping, h.loop, hcontrol, hrun, hthread, hfd, h.ticks,
        mainStep, call, downlinkNext, downlinkStep, Downlink.next, Downlink.controlStep,
        Downlink.loopStep, Pc.ended, State.ran, Downlink.Label.isCall, Downlink.State.toControl,
        Downlink.State.toLoop, Downlink.State.record, State.resume,
        Downlink.countedOutcomes_append, h.outcomes] <;>
      rfl
  obtain ⟨s', hs', hend⟩ := hexec
  exact ⟨s', h.reachable.run (Transitions.run_ofPartial_iff.mpr hs'), hend⟩

theorem enqueued_of_replicate {more : List Tick} {n : ℕ} {ok : Bool}
    (h : more.map Tick.enqueued = .replicate n ok) :
    more.length = n ∧ ∀ tick ∈ more, tick.enqueued = ok := by
  constructor
  · rw [← List.length_map, h, List.length_replicate]
  · intro tick htick
    have hmem := List.mem_map_of_mem (f := Tick.enqueued) htick
    rw [h] at hmem
    exact List.eq_of_mem_replicate hmem

theorem exists_final (hL : L.Lawful) {before : List Bool} {refused : ℕ}
    (h : Final cfg (ticks.map Tick.enqueued) outcomes before queued refused) :
    ∃ s : State cfg, (system cfg L uplinks).Reachable s ∧ s.pc = .exited ∧ s.ticks = ticks ∧
      countedOutcomes s.downlink.log = outcomes := by
  obtain ⟨counted, rest, rfl, rfl, hrest⟩ := List.map_eq_append_iff.mp h.answers
  obtain ⟨left, late, rfl, hleft, hlate⟩ := List.map_eq_append_iff.mp hrest
  obtain ⟨rfl, haccepted⟩ := enqueued_of_replicate hleft
  obtain ⟨rfl, hrefused⟩ := enqueued_of_replicate hlate
  have hcounted : outcomes.length = acceptedIn counted := h.counted
  obtain ⟨s₁, h₁⟩ := @exists_drained cfg L uplinks counted outcomes hL h.possible (by omega)
  rw [hcounted, Nat.sub_self] at h₁
  obtain ⟨s₂, h₂⟩ := h₁.pause
  obtain ⟨s₃, h₃⟩ := h₂.accept_all hL haccepted (by rw [Nat.zero_add]; exact h.lost)
  rw [Nat.zero_add] at h₃
  obtain ⟨s₄, h₄⟩ := h₃.refuse_all hL hrefused fun hne =>
    h.full (List.length_eq_zero_iff.not.mpr hne)
  obtain ⟨s₅, hr, hexit, hticks, houtcomes⟩ := h₄.land
  exact ⟨s₅, hr, hexit, by rw [hticks, List.append_assoc], houtcomes⟩

/-- The iterations of a process that has returned, with their measurements and the answers of
`enqueue`, and its outcomes are exactly these. -/
theorem finals_iff (hL : L.Lawful) :
    (∃ s : State cfg, (system cfg L uplinks).Reachable s ∧ s.pc = .exited ∧ s.ticks = ticks ∧
      countedOutcomes s.downlink.log = outcomes) ↔
    ∃ before queued refused,
      Final cfg (ticks.map Tick.enqueued) outcomes before queued refused := by
  constructor
  · rintro ⟨s, hr, hexit, rfl, rfl⟩
    exact final_of_exited hL hr hexit
  · rintro ⟨before, queued, refused, h⟩
    exact exists_final hL h

end Finals

/-- With room for one frame, the last accepted frame can be lost to `stop`. -/
theorem finals_shallow :
    ∃ s : State { telemetry_max_frame_queue_depth := 1 },
      (system { telemetry_max_frame_queue_depth := 1 } firstLibrary []).Reachable s ∧
        s.pc = .exited ∧
        s.ticks = [.simulated {} true, .simulated {} true, .simulated {} false] ∧
        countedOutcomes s.downlink.log = [true] :=
  (finals_iff (JsonLibrary.pinned_lawful (by decide))).mpr ⟨[true], 1, 1, {
    answers := rfl
    lost := by decide
    full := fun _ => by decide
    counted := by decide
    possible := {
      fits := fun n hn => by
        cases n with
        | zero => cases hn
        | succ n => exact Nat.succ_pos n
      roomless := by decide
      counted := by decide
      kept := by decide
      encodable := fun _ => by decide +kernel } }⟩

end Process

end Obcsw
