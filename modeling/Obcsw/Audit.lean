import Obcsw.Survival

/-!
# Audit

What the counters of the dispatcher say. The labels of a run hold what the sockets answered,
so the outcome of each send is known : the datagram went out whole, or it did not.
`m_frames_sent` is the number of the former, `m_frames_dropped` that of the latter and of the
refused calls of `enqueue`, but for the send that the loop is about to count (`audits`). When
`main` has returned there is none, and its last line has the exact numbers.

Nothing checks the address of the ground station when the configuration is loaded. A process
can get a datagram out exactly when `inet_pton` takes that address, the frame queue takes a
frame, and the frames serialize (`reaches_iff`).
-/

set_option linter.unusedSectionVars false

open Exceptions Program

namespace Obcsw

/-! ## The counters of the dispatcher -/

namespace Downlink

/-- What the sockets answer in a step. -/
def Label.answer {Tid : Type} : Label Tid → Option SocketCalls
  | .send _ net => some net
  | _ => none

/-- The payloads handed to `sendUdp`, in order. -/
def handedPayloads (es : List Effect) : List Bytes :=
  es.filterMap fun
    | .handed _ _ payload => some payload
    | _ => none

/-- The outcomes counted, in order. -/
def countedOutcomes (es : List Effect) : List Bool :=
  es.filterMap fun
    | .counted sent => some sent
    | _ => none

/-- The number of calls that `enqueue` refused. -/
def refusedCalls (es : List Effect) : ℕ :=
  es.countP fun
    | .rejected _ => true
    | _ => false

section Log

variable (es es' : List Effect)

theorem handedPayloads_append :
    handedPayloads (es ++ es') = handedPayloads es ++ handedPayloads es' :=
  List.filterMap_append

theorem countedOutcomes_append :
    countedOutcomes (es ++ es') = countedOutcomes es ++ countedOutcomes es' :=
  List.filterMap_append

theorem refusedCalls_append : refusedCalls (es ++ es') = refusedCalls es + refusedCalls es' :=
  List.countP_append

theorem length_handedPayloads : (handedPayloads es).length = (handedFrames es).length := by
  induction es with
  | nil => rfl
  | cons e es ih =>
    cases e with
    | handed fd frame payload => exact congrArg (· + 1) ih
    | _ => exact ih

end Log

/-- The outcome the loop is about to count. -/
def LoopPc.outcome : LoopPc → List Bool
  | counting _ sent => [sent]
  | _ => []

section Threads

variable {Tid : Type} [DecidableEq Tid] {L : JsonLibrary} {cfg : DispatcherConfig}

/-- The outcome the attached loop is about to count. -/
def State.uncountedOutcome (s : State Tid) : List Bool :=
  match s.m_thread with
  | some i => (s.loops i).outcome
  | none => []

/-- The counters agree with the answers of the sockets so far. -/
structure Audited (nets : List SocketCalls) (s : State Tid) : Prop where
  answered : nets.length = (handedPayloads s.log).length
  outcomes : countedOutcomes s.log ++ s.uncountedOutcome =
    List.zipWith SocketCalls.delivered nets (handedPayloads s.log)
  sent : s.dispatcher.m_frames_sent = (countedOutcomes s.log).count true
  dropped : s.dispatcher.m_frames_dropped =
    (countedOutcomes s.log).count false + refusedCalls s.log

variable {nets : List SocketCalls} {s s' : State Tid}

theorem uncountedOutcome_of_attached {i : ℕ} {c : LoopPc} (h : s.m_thread = some i)
    (hc : s.loops i = c) : s.uncountedOutcome = c.outcome := by
  rw [State.uncountedOutcome, h, ← hc]

/-- Any loop may go on to a point with the same outcome to count. -/
theorem uncountedOutcome_of_update {i : ℕ} {c : LoopPc} (hthread : s'.m_thread = s.m_thread)
    (hloops : s'.loops = Function.update s.loops i c) (hc : c.outcome = (s.loops i).outcome) :
    s'.uncountedOutcome = s.uncountedOutcome := by
  unfold State.uncountedOutcome
  rw [hthread, hloops]
  cases s.m_thread with
  | none => rfl
  | some j =>
    rcases eq_or_ne j i with rfl | hne
    · simp only [Function.update_self, hc]
    · simp only [Function.update_of_ne hne]

/-- A step without a send or a count. -/
theorem Audited.keep (hs : Audited nets s) {es : List Effect} (hlog : s'.log = s.log ++ es)
    (hpayloads : handedPayloads es = []) (houtcomes : countedOutcomes es = [])
    (huncounted : s'.uncountedOutcome = s.uncountedOutcome)
    (hsent : s'.dispatcher.m_frames_sent = s.dispatcher.m_frames_sent)
    (hdropped : s'.dispatcher.m_frames_dropped =
      s.dispatcher.m_frames_dropped + refusedCalls es) : Audited nets s' := by
  constructor
  · rw [hlog, handedPayloads_append, hpayloads, List.append_nil]
    exact hs.answered
  · rw [hlog, handedPayloads_append, countedOutcomes_append, hpayloads, houtcomes, huncounted,
      List.append_nil, List.append_nil]
    exact hs.outcomes
  · rw [hlog, countedOutcomes_append, houtcomes, List.append_nil, hsent]
    exact hs.sent
  · rw [hlog, countedOutcomes_append, refusedCalls_append, houtcomes, List.append_nil, hdropped,
      hs.dropped, Nat.add_assoc]

/-- A step that shows nothing, and leaves the counters. -/
theorem Audited.silent (hs : Audited nets s) (hlog : s'.log = s.log)
    (huncounted : s'.uncountedOutcome = s.uncountedOutcome)
    (hsent : s'.dispatcher.m_frames_sent = s.dispatcher.m_frames_sent)
    (hdropped : s'.dispatcher.m_frames_dropped = s.dispatcher.m_frames_dropped) :
    Audited nets s' :=
  hs.keep (hlog.trans (List.append_nil _).symm) rfl rfl huncounted hsent hdropped

/-- A send : the outcome is in the hands of the loop. -/
theorem Audited.send (hs : Audited nets s) {i : ℕ} {fd : ℤ} {frame : TelemetryFrame}
    {payload : Bytes} {net : SocketCalls} (hthread : s.m_thread = some i)
    (h : s.loops i = .sending frame payload) (hthread' : s'.m_thread = s.m_thread)
    (h' : s'.loops i = .counting frame (net.delivered payload))
    (hlog : s'.log = s.log ++ [.handed fd frame payload])
    (hdispatcher : s'.dispatcher = s.dispatcher) : Audited (nets ++ [net]) s' := by
  have houtcomes := hs.outcomes
  rw [uncountedOutcome_of_attached hthread h] at houtcomes
  replace houtcomes := (List.append_nil _).symm.trans houtcomes
  have hpayloads : handedPayloads s'.log = handedPayloads s.log ++ [payload] := by
    rw [hlog]
    exact handedPayloads_append ..
  have hcounted : countedOutcomes s'.log = countedOutcomes s.log := by
    rw [hlog, countedOutcomes_append]
    exact List.append_nil _
  have hrefused : refusedCalls s'.log = refusedCalls s.log := by
    rw [hlog]
    exact refusedCalls_append ..
  constructor
  · rw [hpayloads, List.length_append, List.length_append, hs.answered]
    rfl
  · rw [hpayloads, hcounted, List.zipWith_append hs.answered, ← houtcomes,
      uncountedOutcome_of_attached (hthread'.trans hthread) h']
    rfl
  · rw [hcounted, hdispatcher]
    exact hs.sent
  · rw [hcounted, hrefused, hdispatcher]
    exact hs.dropped

/-- A count : the outcome goes from the hands of the loop to the counters. -/
theorem Audited.count (hs : Audited nets s) {i : ℕ} {frame : TelemetryFrame} {sent : Bool}
    (hthread : s.m_thread = some i) (h : s.loops i = .counting frame sent)
    (hthread' : s'.m_thread = s.m_thread) (h' : s'.loops i = .draining)
    (hlog : s'.log = s.log ++ [.counted sent])
    (hdispatcher : s'.dispatcher = TelemetryDispatcher.counted s.dispatcher sent) :
    Audited nets s' := by
  have houtcomes := hs.outcomes
  rw [uncountedOutcome_of_attached hthread h] at houtcomes
  have hpayloads : handedPayloads s'.log = handedPayloads s.log := by
    rw [hlog, handedPayloads_append]
    exact List.append_nil _
  have hcounted : countedOutcomes s'.log = countedOutcomes s.log ++ [sent] := by
    rw [hlog]
    exact countedOutcomes_append ..
  have hrefused : refusedCalls s'.log = refusedCalls s.log := by
    rw [hlog]
    exact refusedCalls_append ..
  constructor
  · rw [hpayloads]
    exact hs.answered
  · rw [hpayloads, hcounted, ← houtcomes,
      uncountedOutcome_of_attached (hthread'.trans hthread) h']
    exact List.append_nil _
  · rw [hcounted, hdispatcher, List.count_append, ← hs.sent]
    cases sent <;> rfl
  · rw [hcounted, hrefused, hdispatcher, List.count_append, Nat.add_right_comm, ← hs.dropped]
    cases sent <;> rfl

/-- A step in which the sockets answer nothing. -/
theorem Audited.unanswered {l : Label Tid} (hs : Audited nets s) (hinv : Inv cfg s)
    (h : Step L cfg s l s') (hl : l.answer = none) : Audited nets s' := by
  have hattached := hinv.attached
  cases h with
  | send => cases hl
  | count i frame sent h =>
    exact hs.count (hattached i (by rw [h]; simp)) h rfl (Function.update_self ..) rfl rfl
  | enqueue t frame h =>
    refine hs.keep rfl ?_ ?_ rfl ?_ ?_ <;> unfold Dispatcher.enqueue <;> split <;> rfl
  | check i h =>
    refine hs.silent rfl (uncountedOutcome_of_update rfl rfl ?_) rfl rfl
    rw [h]
    split <;> rfl
  | sleep i h | drained i h | serialize i frame payload h =>
    exact hs.silent rfl (uncountedOutcome_of_update rfl rfl (by rw [h]; rfl)) rfl rfl
  | pop i frame rest h =>
    exact hs.keep rfl rfl rfl (uncountedOutcome_of_update rfl rfl (by rw [h]; rfl)) rfl rfl
  | spawn h hthread =>
    refine hs.keep rfl rfl rfl ?_ rfl rfl
    rw [uncountedOutcome_of_attached rfl (Function.update_self ..), State.uncountedOutcome,
      hthread]
    rfl
  | join i h hthread hloop =>
    refine hs.silent rfl ?_ rfl rfl
    rw [uncountedOutcome_of_attached hthread hloop]
    rfl
  | _ => first | exact hs.silent rfl rfl rfl rfl | exact hs.keep rfl rfl rfl rfl rfl rfl

theorem Audited.step {l : Label Tid} (hs : Audited nets s) (hinv : Inv cfg s)
    (h : Step L cfg s l s') : Audited (nets ++ l.answer.toList) s' := by
  cases hl : l.answer with
  | none =>
    rw [Option.toList_none, List.append_nil]
    exact hs.unanswered hinv h hl
  | some net =>
    cases h with
    | send i net frame payload h =>
      obtain rfl := Option.some.inj hl
      exact hs.send (hinv.attached i (by rw [h]; simp)) h rfl (Function.update_self ..) rfl rfl
    | _ => cases hl

/-- Every run keeps the books. -/
theorem audited_run {ls : List (Label Tid)} (hr : (system Tid L cfg).Run {} ls s) :
    Audited (ls.filterMap Label.answer) s := by
  refine hr.trace_induct (I := fun ls s => Audited (ls.filterMap Label.answer) s)
    (Transitions.reachable_of_initial rfl) ⟨rfl, rfl, rfl, rfl⟩ fun ls s l s' hr hs hstep => ?_
  rw [List.filterMap_append]
  have h := hs.step (inv_reachable hr) (step_of_next hstep).2
  cases hl : l.answer <;> simpa [hl] using h

end Threads

end Downlink

/-! ## The counters of a process -/

namespace Process

open Downlink (handedPayloads handedFrames)
open Main
open TelemetrySerializer (toJson)
open Transitions (exec)

/-- What the sockets answer in a step. -/
def Label.answer : Label → Option SocketCalls
  | .downlink k => k.answer
  | _ => none

section Audit

variable {cfg : SatelliteConfig} {L : JsonLibrary} {uplinks : List Uplink} {s s' : State cfg}

/-- A step of the process is one of the dispatcher with the same answer of the sockets, or
leaves the dispatcher alone. -/
theorem answer_of_step {l : Label} (h : Step L uplinks s l s') :
    (s'.downlink = s.downlink ∧ l.answer = none) ∨
      ∃ k, downlinkNext L s k = some s'.downlink ∧ k.answer = l.answer := by
  cases h with
  | start d h hd => exact Or.inr ⟨_, hd, rfl⟩
  | stop d h hdown hd => exact Or.inr ⟨_, hd, rfl⟩
  | report d h hd => exact Or.inr ⟨_, hd, rfl⟩
  | iterate measure es vars frame d h hup hrun hd => exact Or.inr ⟨_, hd, rfl⟩
  | downlink k d hk hd => exact Or.inr ⟨k, by rw [State.resume_downlink]; exact hd, rfl⟩
  | _ => exact Or.inl ⟨rfl, rfl⟩

/-- A run of the process has a run of its dispatcher in it, with the same answers. -/
theorem downlink_run {ls : List Label} (hr : (system cfg L uplinks).Run s ls s') :
    ∃ ks, (Downlink.system Unit L (dispatcherConfig cfg)).Run s.downlink ks s'.downlink ∧
      ks.filterMap Downlink.Label.answer = ls.filterMap Label.answer := by
  induction hr with
  | nil s => exact ⟨[], .nil _, rfl⟩
  | @cons s s₁ s' l ls h _ ih =>
    obtain ⟨ks, hks, hanswers⟩ := ih
    rcases answer_of_step (step_of_next h).2.2 with ⟨hsame, hl⟩ | ⟨k, hk, hl⟩
    · rw [hsame] at hks
      exact ⟨ks, hks, by rw [hanswers, List.filterMap_cons_none hl]⟩
    · refine ⟨k :: ks, .cons hk hks, ?_⟩
      rw [List.filterMap_cons, List.filterMap_cons, hl, hanswers]

theorem downlink_audited {ls : List Label} (hr : (system cfg L uplinks).Run {} ls s) :
    Downlink.Audited (ls.filterMap Label.answer) s.downlink := by
  obtain ⟨ks, hks, hanswers⟩ := downlink_run hr
  rw [← hanswers]
  exact Downlink.audited_run hks

/-- What became of the payloads handed to the sockets. -/
def State.outcomes (s : State cfg) (nets : List SocketCalls) : List Bool :=
  List.zipWith SocketCalls.delivered nets (handedPayloads s.downlink.log)

/-- The number of iterations whose frame `enqueue` refused. -/
def State.refused (s : State cfg) : ℕ :=
  s.ticks.countP fun tick => !tick.enqueued

/-- The counters agree with the answers of the sockets. -/
structure Audited (nets : List SocketCalls) (s : State cfg) : Prop where
  /-- The sockets have answered for each frame handed to them. -/
  answered : nets.length = (handedFrames s.downlink.log).length
  /-- At most one outcome is not counted yet. -/
  uncounted : s.downlink.uncountedOutcome.length ≤ 1
  sent : s.downlink.dispatcher.m_frames_sent + s.downlink.uncountedOutcome.count true =
    (s.outcomes nets).count true
  dropped : s.downlink.dispatcher.m_frames_dropped + s.downlink.uncountedOutcome.count false =
    (s.outcomes nets).count false + s.refused
  /-- The last line has the final numbers. -/
  final : s.pc = .exited → s.downlink.uncountedOutcome = [] ∧
    ∃ es, s.events = es ++ [.cout (report s.downlink.dispatcher)]

/-- The refused calls are the iterations that say so. -/
theorem refusedCalls_eq (hbooks : Books s) :
    Downlink.refusedCalls s.downlink.log = s.refused := by
  have hcalls : ∀ es, Downlink.refusedCalls es = ((calls es).map Prod.snd).count false := by
    intro es
    induction es with
    | nil => rfl
    | cons e es ih =>
      cases e with
      | rejected frame =>
        rw [Downlink.refusedCalls, List.countP_cons_of_pos rfl]
        exact (congrArg (· + 1) ih).trans List.count_cons_self.symm
      | accepted frame =>
        rw [Downlink.refusedCalls, List.countP_cons_of_neg Bool.false_ne_true]
        exact ih.trans (List.count_cons_of_ne Bool.true_eq_false_eq_False).symm
      | _ =>
        rw [Downlink.refusedCalls, List.countP_cons_of_neg Bool.false_ne_true]
        exact ih
  rw [hcalls, hbooks.calls, List.map_snd_zip (by rw [length_due, List.length_map]), State.refused,
    List.count, List.countP_map]
  refine List.countP_congr fun tick _ => ?_
  cases henqueued : tick.enqueued <;> simp [henqueued]

/-- The counters of every run agree with the answers in its labels. -/
theorem audits {ls : List Label} (hr : (system cfg L uplinks).Run {} ls s) :
    Audited (ls.filterMap Label.answer) s := by
  have hreach : (system cfg L uplinks).Reachable s := ⟨{}, ls, rfl, hr⟩
  have hdown := downlink_reachable hreach
  have haudited := downlink_audited hr
  constructor
  · rw [haudited.answered, Downlink.length_handedPayloads]
  · unfold Downlink.State.uncountedOutcome
    split
    · next i _ => cases s.downlink.loops i <;> simp [Downlink.LoopPc.outcome]
    · exact Nat.zero_le 1
  · rw [State.outcomes, ← haudited.outcomes, List.count_append, haudited.sent]
  · rw [State.outcomes, ← haudited.outcomes, List.count_append, haudited.dropped,
      ← refusedCalls_eq (books_reachable hreach)]
    omega
  · intro hexit
    refine ⟨?_, settled_reachable hreach (Or.inr hexit)⟩
    have hknows := knows_reachable hreach
    rw [Knows, hexit] at hknows
    obtain ⟨hcontrol, hrun, -⟩ := hknows
    rw [Downlink.State.uncountedOutcome,
      (Downlink.live_reachable hdown).detached hrun (by rw [hcontrol]; simp)]

/-! ## A process that gets a datagram out -/

theorem exists_handed {es : List Downlink.Effect} {payload : Bytes}
    (h : payload ∈ handedPayloads es) : ∃ fd frame, .handed fd frame payload ∈ es := by
  obtain ⟨e, he, hpayload⟩ := List.mem_filterMap.mp h
  cases e with
  | handed fd frame payload' =>
    obtain rfl := Option.some.inj hpayload
    exact ⟨fd, frame, he⟩
  | _ => cases hpayload

/-- A frame handed to `sendUdp` has been serialized. -/
theorem encodable_of_handed (hL : L.Lawful) (hr : (system cfg L uplinks).Reachable s)
    {fd : ℤ} {frame : TelemetryFrame} {payload : Bytes}
    (hhanded : .handed fd frame payload ∈ s.downlink.log) :
    validUtf8 cfg.satellite_name = true := by
  have hdown := downlink_reachable hr
  have hframe : frame ∈ Downlink.acceptedFrames s.downlink.log :=
    (Downlink.handed_isPrefix hdown).subset
      (List.mem_filterMap.mpr ⟨.handed fd frame payload, hhanded, rfl⟩)
  have hdue := (accepted_sublist (books_reachable hr)).subset hframe
  rw [← satellite_id_of_due hdue]
  exact (TelemetrySerializer.toJson_ok_iff hL frame).mp
    ⟨payload, (Downlink.texts_reachable hdown).handed fd frame payload hhanded⟩

/-- A frame sent is one `sendto` took whole, and the text of a frame due. -/
theorem of_sent {ls : List Label} (hL : L.Lawful) (hr : (system cfg L uplinks).Run {} ls s)
    (hsent : s.downlink.dispatcher.m_frames_sent ≠ 0) :
    (∃ net ∈ ls.filterMap Label.answer, net.inet_pton = 1) ∧
      0 < cfg.telemetry_max_frame_queue_depth.toNat ∧ validUtf8 cfg.satellite_name = true := by
  have hreach : (system cfg L uplinks).Reachable s := ⟨{}, ls, rfl, hr⟩
  have hdown := downlink_reachable hreach
  have haudited := downlink_audited hr
  have hcounted : true ∈ Downlink.countedOutcomes s.downlink.log := by
    rw [haudited.sent] at hsent
    exact List.count_pos_iff.mp (Nat.pos_of_ne_zero hsent)
  have hmem := List.mem_append_left s.downlink.uncountedOutcome hcounted
  rw [haudited.outcomes, ← List.map_uncurry_zip_eq_zipWith] at hmem
  obtain ⟨⟨net, payload⟩, hmem, hdelivered⟩ := List.mem_map.mp hmem
  obtain ⟨hnet, hpayload⟩ := List.of_mem_zip hmem
  rw [Function.uncurry, SocketCalls.delivered, Bool.and_eq_true, decide_eq_true_eq] at hdelivered
  obtain ⟨fd, frame, hhanded⟩ := exists_handed hpayload
  have hframe : frame ∈ Downlink.acceptedFrames s.downlink.log :=
    (Downlink.handed_isPrefix hdown).subset
      (List.mem_filterMap.mpr ⟨.handed fd frame payload, hhanded, rfl⟩)
  refine ⟨⟨net, hnet, hdelivered.1⟩, ?_, ?_⟩
  · by_contra hzero
    rw [Downlink.accepted_of_zero hdown (Nat.eq_zero_of_not_pos hzero)] at hframe
    cases hframe
  · exact encodable_of_handed hL hreach hhanded

/-- Once the loop holds a frame that serializes, the sockets can take it. -/
theorem exists_sent (hL : L.Lawful) (hdepth : 0 < cfg.telemetry_max_frame_queue_depth.toNat)
    (hname : validUtf8 cfg.satellite_name = true) : ∃ ls s, (system cfg L uplinks).Run {} ls s ∧
      (∀ net ∈ ls.filterMap Label.answer, net.inet_pton = 1) ∧
      s.downlink.dispatcher.m_frames_sent ≠ 0 := by
  obtain ⟨s, frame, ⟨_, ls, rfl, hr⟩, hpc, -, hid, hdown⟩ := exists_enqueued cfg L uplinks hdepth
  have hend : s.pc.ended = false := by rw [hpc]; rfl
  obtain ⟨payload, hok⟩ := (TelemetrySerializer.toJson_ok_iff hL frame).mpr (by rw [hid, hname])
  have hloops : ∃ d, exec (Downlink.next L (dispatcherConfig cfg)) s.downlink
      ([0, 0, 0, 0].map .loop) = some d ∧ d.loops 0 = .sending frame payload ∧
      d.terminated = false ∧ handedPayloads d.log = [] := by
    rw [hdown]
    simp [exec, Downlink.next, Downlink.loopStep, manned, Downlink.State.toLoop,
      Downlink.State.record, hok, handedPayloads]
  obtain ⟨d, hd, hloop, hterm, hnone⟩ := hloops
  obtain ⟨ks, hks⟩ := @run_loops cfg L uplinks s hend _ d hd
  have hsend : Downlink.next L (dispatcherConfig cfg) d (.send 0 ⟨1, payload.length⟩) =
      some ((d.toLoop 0 (.counting frame true)).record
        [.handed d.dispatcher.m_sock_fd frame payload]) := by
    simp [Downlink.next, Downlink.sendStep, hterm, hloop, SocketCalls.delivered]
  have hcount : ∃ d', Downlink.next L (dispatcherConfig cfg)
      ((d.toLoop 0 (.counting frame true)).record
        [.handed d.dispatcher.m_sock_fd frame payload]) (.loop 0) = some d' ∧
      d'.dispatcher.m_frames_sent ≠ 0 := by
    simp [Downlink.next, Downlink.loopStep, Downlink.State.record, Downlink.State.toLoop, hterm,
      TelemetryDispatcher.counted]
  obtain ⟨d', hd', hsent⟩ := hcount
  have hrun := hr.append hks
  -- No frame has been handed over before, so the sockets have answered only this once.
  have hanswers : (ls ++ ks).filterMap Label.answer = [] := by
    rw [← List.length_eq_zero_iff, (downlink_audited hrun).answered]
    exact congrArg List.length hnone
  have hrun₁ := hrun.append (.single (next_still hend rfl hsend rfl (by simp [answers])))
  have hrun₂ := hrun₁.append (.single (next_loop hend hd'))
  refine ⟨_, _, hrun₂, ?_, hsent⟩
  rw [List.filterMap_append, List.filterMap_append, hanswers]
  intro net hnet
  obtain rfl := List.mem_singleton.mp hnet
  rfl

/-- Where the sockets answer by `inet_pton`, a process can get a datagram out exactly when
`inet_pton` takes the address of the ground station, the frame queue takes a frame, and the name
of the satellite is valid UTF-8. -/
theorem reaches_iff (hL : L.Lawful) (inet_pton : Bytes → ℤ) :
    (∃ ls s, (system cfg L uplinks).Run {} ls s ∧
      (∀ net ∈ ls.filterMap Label.answer, net.inet_pton = inet_pton cfg.ground_station_ip) ∧
      s.downlink.dispatcher.m_frames_sent ≠ 0) ↔
    inet_pton cfg.ground_station_ip = 1 ∧ 0 < cfg.telemetry_max_frame_queue_depth.toNat ∧
      validUtf8 cfg.satellite_name = true := by
  constructor
  · rintro ⟨ls, s, hr, hnets, hsent⟩
    obtain ⟨⟨net, hnet, hone⟩, hdepth, hname⟩ := of_sent hL hr hsent
    exact ⟨(hnets net hnet).symm.trans hone, hdepth, hname⟩
  · rintro ⟨hone, hdepth, hname⟩
    obtain ⟨ls, s, hr, hnets, hsent⟩ := exists_sent hL hdepth hname
    exact ⟨ls, s, hr, fun net hnet => (hnets net hnet).trans hone.symm, hsent⟩

end Audit

theorem audits_landed : ∃ ls : List Label, Audited (ls.filterMap Label.answer) landed ∧
    landed.downlink.dispatcher.m_frames_sent = 1 := by
  obtain ⟨_, ls, rfl, hr⟩ := landed_reachable
  exact ⟨ls, audits hr, by decide +kernel⟩

/-- The default address is a local one. -/
theorem reaches_local : ∃ (ls : List Label) (s : State {}),
    (system {} firstLibrary []).Run {} ls s ∧ (∀ net ∈ ls.filterMap Label.answer,
      net.inet_pton = if ({} : SatelliteConfig).ground_station_ip = bytes "127.0.0.1" then 1
        else 0) ∧ s.downlink.dispatcher.m_frames_sent ≠ 0 :=
  (reaches_iff (JsonLibrary.pinned_lawful (by decide)) fun ip =>
    if ip = bytes "127.0.0.1" then 1 else 0).mpr ⟨by decide +kernel, by decide, by decide +kernel⟩

end Process

end Obcsw
