import Obcsw.MainThread
import Obcsw.StopReturns
import Obcsw.TelemetryQueue

/-!
# Delivery

What reaches the sockets, end to end. The frames handed to `sendto` are a prefix of those
`enqueue` has accepted, and so in order among the frames of the main loop, each with the flags
due to it; the datagram is the text of its frame, and decodes to it (`delivered`). Frame ids
never repeat or go back.

When `main` has returned, every iteration is in one place : sent, dropped, or left in the
queue, and the line `main` prints last says how many are sent and dropped (`reported`).
-/

set_option linter.unusedSectionVars false

open Exceptions Program

namespace Obcsw

/-! ## The texts on the way -/

namespace Downlink

section Texts

variable {Tid : Type} [DecidableEq Tid] {L : JsonLibrary} {cfg : DispatcherConfig}

/-- A payload is the text of its frame. -/
structure Texts (L : JsonLibrary) (s : State Tid) : Prop where
  sending : ∀ i frame payload, s.loops i = .sending frame payload →
    TelemetrySerializer.toJson L frame = .ok payload
  handed : ∀ fd frame payload, .handed fd frame payload ∈ s.log →
    TelemetrySerializer.toJson L frame = .ok payload

/-- Nothing is put on the way. -/
theorem Texts.keep {s s' : State Tid} (hs : Texts L s)
    (hloops : ∀ i frame payload, s'.loops i = .sending frame payload →
      s.loops i = .sending frame payload)
    (hlog : ∀ fd frame payload, .handed fd frame payload ∈ s'.log →
      .handed fd frame payload ∈ s.log) : Texts L s' :=
  ⟨fun i frame payload h => hs.sending i frame payload (hloops i frame payload h),
    fun fd frame payload h => hs.handed fd frame payload (hlog fd frame payload h)⟩

/-- The loop is at no send. -/
def LoopPc.unsent : LoopPc → Bool
  | sending _ _ => false
  | _ => true

/-- A loop goes on, and not to a send. -/
theorem sending_of_update {loops : ℕ → LoopPc} {i j : ℕ} {c : LoopPc} {frame : TelemetryFrame}
    {payload : Bytes} (hc : c.unsent = true)
    (h : Function.update loops i c j = .sending frame payload) :
    loops j = .sending frame payload := by
  rcases eq_or_ne j i with rfl | hne
  · rw [Function.update_self] at h
    rw [h] at hc
    cases hc
  · rwa [Function.update_of_ne hne] at h

theorem Texts.step {s s' : State Tid} {l : Label Tid} (hs : Texts L s)
    (h : Step L cfg s l s') : Texts L s' := by
  cases h with
  | serialize i frame payload h hok =>
    refine ⟨fun j frame' payload' hj => ?_, hs.handed⟩
    rcases eq_or_ne j i with rfl | hne
    · simp only [State.toLoop, Function.update_self] at hj
      cases hj
      exact hok
    · simp only [State.toLoop, Function.update_of_ne hne] at hj
      exact hs.sending j frame' payload' hj
  | send i net frame payload h =>
    refine ⟨fun j _ _ hj => hs.sending j _ _ (sending_of_update rfl hj), fun fd f p hp => ?_⟩
    rcases List.mem_append.mp hp with hp | hp
    · exact hs.handed fd f p hp
    · cases List.mem_singleton.mp hp
      exact hs.sending i frame payload h
  | check i h =>
    refine hs.keep (fun j _ _ hj => sending_of_update ?_ hj) fun _ _ _ hp => hp
    split <;> rfl
  | sleep | drained =>
    exact hs.keep (fun _ _ _ hj => sending_of_update rfl hj) fun _ _ _ hp => hp
  | pop | count | spawn =>
    exact hs.keep (fun _ _ _ hj => sending_of_update rfl hj)
      fun _ _ _ hp => by simpa [State.record, State.toLoop, State.toControl] using hp
  | enqueue t frame h =>
    refine hs.keep (fun _ _ _ hj => hj) fun _ _ _ hp => ?_
    revert hp
    cases (s.dispatcher.enqueue cfg frame).1 <;> simp [State.record]
  | _ =>
    exact hs.keep (fun _ _ _ hj => hj)
      fun _ _ _ hp => by simpa [State.record, State.toControl] using hp

theorem texts_reachable {s : State Tid} (h : (system Tid L cfg).Reachable s) : Texts L s := by
  refine h.induct (fun s hs => ?_) fun s l s' _ hs hstep => hs.step (step_of_next hstep).2
  obtain rfl : s = {} := hs
  exact ⟨nofun, nofun⟩

end Texts

end Downlink

namespace Process

open Downlink (Effect handedFrames acceptedFrames)
open Main
open TelemetrySerializer (toJson fromJson doubles)

section Delivery

variable {cfg : SatelliteConfig} {L : JsonLibrary} {uplinks : List Uplink} {s : State cfg}

/-! ## The frames due -/

theorem dueFrom_getElem? (hist gs : List TelemetryFrame) (n : ℕ) :
    (dueFrom cfg hist gs)[n]? = gs[n]?.map fun g => flagged cfg (hist ++ gs.take n) g := by
  induction gs generalizing hist n with
  | nil => rfl
  | cons g gs ih =>
    cases n with
    | zero =>
      rw [dueFrom, List.getElem?_cons_zero, List.getElem?_cons_zero, List.take_zero,
        List.append_nil]
      rfl
    | succ n =>
      rw [dueFrom, List.getElem?_cons_succ, List.getElem?_cons_succ, ih, List.take_succ_cons,
        List.append_assoc, List.singleton_append]

/-- The `n`-th frame due is the `n`-th generated one, with its flags. -/
theorem due_getElem? {ticks : List Tick} {n : ℕ} {f : TelemetryFrame}
    (h : (due cfg ticks)[n]? = some f) : ∃ g, (measuredFrom cfg 0 ticks)[n]? = some g ∧
      f = flagged cfg ((measuredFrom cfg 0 ticks).take n) g ∧ g.frame_id = UInt64.ofNat n := by
  rw [due, dueFrom_getElem?] at h
  obtain ⟨g, hg, rfl⟩ := Option.map_eq_some_iff.mp h
  have hid := frame_id_of_measuredFrom hg
  rw [UInt64.zero_add] at hid
  exact ⟨g, hg, by rw [List.nil_append], hid⟩

/-- While the ids do not wrap around, they go up. -/
theorem due_pairwise {ticks : List Tick} (hlen : ticks.length ≤ 2 ^ 64) :
    (due cfg ticks).Pairwise fun f g => f.frame_id < g.frame_id := by
  rw [List.pairwise_iff_getElem]
  intro m n hm hn hlt
  obtain ⟨g, -, hf, hid⟩ := due_getElem? (List.getElem?_eq_getElem hm)
  obtain ⟨g', -, hf', hid'⟩ := due_getElem? (List.getElem?_eq_getElem hn)
  rw [length_due] at hm hn
  rw [hf, hf']
  show g.frame_id < g'.frame_id
  rw [hid, hid', UInt64.lt_iff_toNat_lt, UInt64.toNat_ofNat_of_lt' (hm.trans_le hlen),
    UInt64.toNat_ofNat_of_lt' (hn.trans_le hlen)]
  exact hlt

/-! ## The frames accepted -/

/-- The frames of the calls that `enqueue` answered with true. -/
theorem acceptedFrames_eq (es : List Effect) :
    acceptedFrames es = ((calls es).filter Prod.snd).map Prod.fst := by
  induction es with
  | nil => rfl
  | cons e es ih =>
    cases e with
    | accepted frame => exact congrArg (frame :: ·) ih
    | _ => exact ih

/-- Dropping pairs leaves a sublist of the first components. -/
theorem sublist_of_zip {α β : Type} {l : List α} {m : List β} (p : α × β → Bool)
    (hlen : l.length ≤ m.length) : List.Sublist (((l.zip m).filter p).map Prod.fst) l := by
  have hsub := (List.filter_sublist (p := p) (l := l.zip m)).map Prod.fst
  rwa [List.map_fst_zip hlen] at hsub

theorem accepted_sublist (h : Books s) :
    (acceptedFrames s.downlink.log).Sublist (due cfg s.ticks) := by
  rw [acceptedFrames_eq, h.calls]
  exact sublist_of_zip _ (by rw [length_due, List.length_map])

/-! ## What the ground receives -/

/-- What has reached the sockets. -/
structure Delivered (L : JsonLibrary) (s : State cfg) : Prop where
  /-- The frames handed to `sendto` are, in order, among the due ones. -/
  sublist : (handedFrames s.downlink.log).Sublist (due cfg s.ticks)
  /-- None is overtaken : they come first among those accepted. -/
  fifo : List.IsPrefix (handedFrames s.downlink.log) (acceptedFrames s.downlink.log)
  /-- The `n`-th frame due is the `n`-th one generated, with the flags of the history. -/
  flags : ∀ n f, (due cfg s.ticks)[n]? = some f → Healthy cfg (measuredFrom cfg 0 s.ticks) n f
  /-- No id is sent twice, and none after a higher one. -/
  ids : s.ticks.length ≤ 2 ^ 64 →
    (handedFrames s.downlink.log).Pairwise fun f g => f.frame_id < g.frame_id
  /-- A datagram is the text of its frame, and decodes to it. -/
  payloads : ∀ fd frame payload, .handed fd frame payload ∈ s.downlink.log →
    toJson L frame = .ok payload ∧
      ((∀ d ∈ doubles frame, d.isFinite = true) → fromJson L payload = .ok frame)

/-- Every reachable process delivers. -/
theorem delivered (hL : L.Lawful) (h : (system cfg L uplinks).Reachable s) : Delivered L s := by
  have hdown := downlink_reachable h
  have hfifo := Downlink.handed_isPrefix hdown
  have hsub := hfifo.sublist.trans (accepted_sublist (books_reachable h))
  exact {
    sublist := hsub
    fifo := hfifo
    flags := by
      intro n f hf
      obtain ⟨g, hg, rfl, hid⟩ := due_getElem? hf
      exact healthy_flagged hg hid
    ids := fun hlen => (due_pairwise hlen).sublist hsub
    payloads := by
      intro fd frame payload hmem
      have htext := (Downlink.texts_reachable hdown).handed fd frame payload hmem
      refine ⟨htext, fun hfin => ?_⟩
      rw [TelemetrySerializer.fromJson_toJson hL frame htext, if_pos (List.all_eq_true.mpr hfin)] }

/-! ## The last line -/

/-- In the destructor, and after it, the dispatcher is the one of the last line. -/
def Settled (s : State cfg) : Prop :=
  s.pc = .destroying ∨ s.pc = .exited →
    ∃ es, s.events = es ++ [.cout (report s.downlink.dispatcher)]

/-- The destructor finds no loop and no caller, and nothing to stop. -/
theorem dispatcher_of_destroying (hr : (system cfg L uplinks).Reachable s)
    (hpc : s.pc = .destroying) {k : Downlink.Label Unit} {d : Downlink.State Unit}
    (hk : k.isCall = false) (h : Downlink.Step L (dispatcherConfig cfg) s.downlink k d) :
    d.dispatcher = s.downlink.dispatcher := by
  have hdown := downlink_reachable hr
  have hknows := knows_reachable hr
  rw [Knows, hpc] at hknows
  obtain ⟨hcontrol, hrun, hcaller⟩ := hknows
  have hthread := (Downlink.live_reachable hdown).detached hrun (by rw [hcontrol]; exact nofun)
  have hexited := (Downlink.inv_reachable hdown).exited_of_detached hthread
  cases h with
  | call | start | stop => cases hk
  | enqueue t frame h =>
    rw [hcaller] at h
    cases h
  | stopStopped => rfl
  | stopRunning h hup =>
    rw [hrun] at hup
    cases hup
  | check i h | sleep i h | drained i h | pop i _ _ h | serialize i _ _ h
  | serializeThrows i _ _ h | send i _ _ _ h | count i _ _ h => simp [hexited] at h
  | startRunning h | startStopped h | socketFails _ h | socket _ h | raise h | spawnFails h
  | spawnJoinable _ h | spawn h | clear h | joinNone h | join _ h | close h | closeNone h =>
    simp [hcontrol] at h

theorem Settled.step {s' : State cfg} {l : Label} (hs : Settled s)
    (hr : (system cfg L uplinks).Reachable s) (hend : s.pc.ended = false)
    (h : Step L uplinks s l s') : Settled s' := by
  cases h with
  | signal => exact hs
  | report d h hd =>
    obtain rfl := eq_of_stop hd
    exact fun _ => ⟨s.events, rfl⟩
  | downlink k d hk hd =>
    have hstep := (Downlink.step_of_next hd).2
    have hsame := fun hpc => dispatcher_of_destroying hr hpc hk hstep
    have hresumes := resumes_of_step (knows_reachable hr) hend hk (downlink_reachable hr) hstep
    revert hresumes
    generalize ({ s with downlink := d } : State cfg).resume
      (d.log.drop s.downlink.log.length) = s'
    intro hresumes
    cases hresumes with
    | still =>
      rintro (hpc | hpc)
      · obtain ⟨es, hes⟩ := hs (Or.inl hpc)
        exact ⟨es, by rw [hsame hpc]; exact hes⟩
      · change s.pc = .exited at hpc
        rw [hpc] at hend
        cases hend
    | destroyed hpc =>
      obtain ⟨es, hes⟩ := hs (Or.inl hpc)
      exact fun _ => ⟨es, by rw [hsame hpc]; exact hes⟩
    | started | failed | answered | stopped => rintro (h | h) <;> cases h
  | _ => rintro (h | h) <;> cases h

theorem settled_reachable (h : (system cfg L uplinks).Reachable s) : Settled s := by
  refine h.induct (fun s hs => ?_) fun s l s' hr hs hstep => ?_
  · obtain rfl : s = {} := hs
    rintro (h | h) <;> cases h
  · obtain ⟨-, hend, hstep⟩ := step_of_next hstep
    exact hs.step hr hend hstep

/-- Every iteration is one completed call of `enqueue`. -/
theorem completedCalls_eq (es : List Effect) :
    Downlink.completedCalls es = (calls es).length := by
  induction es with
  | nil => rfl
  | cons e es ih =>
    cases e with
    | accepted | rejected =>
      rw [Downlink.completedCalls, List.countP_cons_of_pos rfl]
      exact congrArg (· + 1) ih
    | _ =>
      rw [Downlink.completedCalls, List.countP_cons_of_neg Bool.false_ne_true]
      exact ih

/-- What is so when `main` has returned. -/
structure Reported (s : State cfg) : Prop where
  /-- The last line has the counters as they are. -/
  line : ∃ es, s.events = es ++ [.cout (report s.downlink.dispatcher)]
  /-- Every iteration has had its frame sent, dropped, or left in the queue. -/
  total : s.ticks.length = s.downlink.dispatcher.m_frames_sent +
    s.downlink.dispatcher.m_frames_dropped + s.downlink.dispatcher.m_queue.length
  /-- The same equation for the numbers in the line. -/
  counters : UInt64.ofNat s.ticks.length = s.downlink.dispatcher.framesSent +
    s.downlink.dispatcher.framesDropped + UInt64.ofNat s.downlink.dispatcher.m_queue.length
  /-- The frames accepted are those handed to `sendto` and those left. -/
  left : acceptedFrames s.downlink.log =
    handedFrames s.downlink.log ++ s.downlink.dispatcher.m_queue
  /-- No loop runs on, and every descriptor opened is closed. -/
  exited : ∀ i, s.downlink.loops i = .exited
  closed : Downlink.openedDescriptors s.downlink.log = Downlink.closedDescriptors s.downlink.log

/-- Every process whose `main` has returned has reported. -/
theorem reported (h : (system cfg L uplinks).Reachable s) (hexit : s.pc = .exited) :
    Reported s := by
  have hdown := downlink_reachable h
  have hinv := Downlink.inv_reachable hdown
  have hknows := knows_reachable h
  rw [Knows, hexit] at hknows
  obtain ⟨hcontrol, hrun, -⟩ := hknows
  have hthread := (Downlink.live_reachable hdown).detached hrun (by rw [hcontrol]; exact nofun)
  have htotal : s.ticks.length = s.downlink.dispatcher.m_frames_sent +
      s.downlink.dispatcher.m_frames_dropped + s.downlink.dispatcher.m_queue.length := by
    have hcalls := congrArg List.length (books_reachable h).calls
    rw [← completedCalls_eq, hinv.conserved, List.length_zip, length_due, List.length_map,
      Nat.min_self, Downlink.State.inHand, hthread] at hcalls
    exact hcalls.symm
  refine ⟨settled_reachable h (Or.inr hexit), htotal, ?_, ?_, hinv.exited_of_detached hthread, ?_⟩
  · rw [htotal, Dispatcher.framesSent, Dispatcher.framesDropped]
    simp only [UInt64.ofNat_add]
  · rw [hinv.accepted, hinv.handed, Downlink.State.inHand, hthread, List.append_nil]
  · have hsockets := (Downlink.sockets_reachable hdown).knows
    rw [hcontrol] at hsockets
    have hrunlog := Downlink.protocol_run hdown
    rw [Downlink.descriptor_of_down (Downlink.down_of_lowered hsockets hrun)] at hrunlog
    have hbalance := Downlink.opened_eq_closed hrunlog
    rwa [Option.toList_none, List.nil_append, List.append_nil] at hbalance

end Delivery

/-! ## A process that sends one frame -/

open TelemetrySerializer (frameTree nominalFrame)
open Transitions (exec reachable_of_exec)

def nominalSimulation : Simulation where
  timestamp_ms := 1700000000000
  battery_voltage_v := 7.4
  battery_current_ma := 250.0
  solar_input_w := 8.0
  charge_pct := 75
  obc_temp_c := 25.0
  battery_temp_c := 22.0
  payload_temp_c := 30.0

/-- The first frame, of a satellite without a name. -/
def firstFrame : TelemetryFrame :=
  generateFrame (nominalSimulation.measure 0) 0 (bytes "UNKNOWN")

def firstText : Bytes :=
  bytes ("\x7b\"frame_id\":0,\"health_flags\":\x7b\"fault_active\":false,\"last_fault_code\":0,"
    ++ "\"safe_mode\":false\x7d,\"satellite_id\":\"UNKNOWN\",\"subsystems\":\x7b\"obc\":\x7b"
    ++ "\"cpu_usage_pct\":30,\"memory_usage_pct\":40,\"uptime_s\":0\x7d,\"power\":\x7b"
    ++ "\"battery_current_ma\":250.0,\"battery_voltage_v\":7.4,\"charge_pct\":75,"
    ++ "\"solar_input_w\":8.0\x7d,\"thermal\":\x7b\"battery_temp_c\":22.0,\"obc_temp_c\":25.0,"
    ++ "\"payload_temp_c\":30.0\x7d\x7d,\"timestamp_ms\":1700000000000\x7d")

/-- The library that writes the first frame as its text. -/
noncomputable def firstLibrary : JsonLibrary :=
  .pinned (frameTree .float firstFrame) firstText

theorem toJson_firstFrame : toJson firstLibrary firstFrame = .ok firstText := by
  have hu : (frameTree .float firstFrame).utf8 = true := by
    rw [TelemetrySerializer.utf8_frameTree]
    decide +kernel
  have hf : (frameTree .float firstFrame).finite = true := by
    rw [TelemetrySerializer.finite_frameTree]
    decide +kernel
  rw [TelemetrySerializer.toJson_eq, JsonLibrary.dumpThrowing, firstLibrary,
    JsonLibrary.dump_pinned_self hf hu]
  rfl

/-- An iteration, and the loop up to the point where it serializes the frame. -/
noncomputable def serializing : State {} :=
  (exec (next firstLibrary []) {} (takeOff ++ [.iterate nominalSimulation.measure,
    .downlink (.enqueue ()), .main, .downlink (.loop 0), .downlink (.loop 0),
    .downlink (.loop 0)])).get (by decide +kernel)

/-- The frame serialized. -/
noncomputable def serialized : State {} :=
  { serializing with downlink := serializing.downlink.toLoop 0 (.sending firstFrame firstText) }

theorem next_serializing : next firstLibrary [] serializing (.downlink (.loop 0)) =
    some serialized := by
  have hterm : serializing.downlink.terminated = false := by decide +kernel
  have hend : serializing.pc.ended = false := by decide +kernel
  have hloop : serializing.downlink.loops 0 = .serializing firstFrame := by decide +kernel
  simp [next, downlinkStep, downlinkNext, Downlink.next, Downlink.loopStep, Downlink.Label.isCall,
    hterm, hend, hloop, toJson_firstFrame, State.resume, serialized, Downlink.State.toLoop]

/-- The loop sends the frame, a signal arrives, and `main` ends. -/
noncomputable def landed : State {} :=
  (exec (next firstLibrary []) serialized [.downlink (.send 0 ⟨1, firstText.length⟩),
    .downlink (.loop 0), .downlink (.loop 0), .signal, .main, .downlink .control,
    .downlink .control, .downlink (.loop 0), .downlink .control, .downlink .control, .main,
    .downlink .control]).get (by decide +kernel)

theorem landed_reachable : (system {} firstLibrary []).Reachable landed := by
  have hr : (system {} firstLibrary []).Reachable serializing :=
    reachable_of_exec _ (Option.some_get _).symm
  exact (hr.step next_serializing).run (Transitions.run_ofPartial_iff.mpr (Option.some_get _).symm)

theorem delivered_landed : Delivered firstLibrary landed ∧
    (handedFrames landed.downlink.log).map TelemetryFrame.frame_id = [0] :=
  ⟨delivered (JsonLibrary.pinned_lawful (by decide)) landed_reachable, by decide +kernel⟩

instance (pc : Pc) : Decidable (pc = .exited) :=
  match pc with
  | .exited => isTrue rfl
  | .built | .starting | .injecting | .looping | .enqueueing _ | .concluding _ | .stopping
  | .reporting | .destroying | .threw _ => isFalse nofun

theorem reported_landed : landed.pc = .exited ∧ Reported landed ∧
    landed.downlink.dispatcher.m_frames_sent = 1 :=
  have hexit : landed.pc = .exited := by decide +kernel
  ⟨hexit, reported landed_reachable hexit, by decide +kernel⟩

end Process

end Obcsw
