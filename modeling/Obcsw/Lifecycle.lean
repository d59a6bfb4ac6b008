import Obcsw.Shutdown

/-!
# Lifecycle

`start` opens a descriptor and creates a loop, `stop` joins the loop and closes the
descriptor. `m_sock_fd` is a plain `int` that both threads use; what keeps them apart is the
order of the steps : open, raise the flag, spawn on one side, and lower the flag, join, close
on the other.

`protocol` says what the order is for : at most one descriptor is open, a loop shows effects
only while one is, and `stop` returns with none. The threads refine it
(`refines_protocol`), with `ControlPc.Knows` as what the control thread knows of the flag and
the descriptor at each of its control points. `liveSocket` reads the results off the runs of
the protocol.

A `start` of a running dispatcher and a `stop` of a stopped one have no effect : taken out of
the run they leave the same run of the other threads (`run_of_ignored`). The destructor calls
`stop`.
-/

set_option linter.unusedSectionVars false

namespace Obcsw

namespace Downlink

open Exceptions (CppException)
open Transitions (Refines run_cons_iff run_nil_iff run_split_iff)

/-! ## Opening and closing -/

/-- The descriptors opened, in order. -/
def openedDescriptors (es : List Effect) : List ℤ :=
  es.filterMap fun
    | .opened fd => some fd
    | _ => none

/-- The descriptors closed, in order. -/
def closedDescriptors (es : List Effect) : List ℤ :=
  es.filterMap fun
    | .closed fd => some fd
    | _ => none

/-- `fd` is the descriptor opened last, and has not been closed. -/
def Open (es : List Effect) (fd : ℤ) : Prop :=
  ∃ before after, es = before ++ .opened fd :: after ∧
    openedDescriptors after = [] ∧ closedDescriptors after = []

/-- The effects of a loop. -/
def Effect.ofLoop : Effect → Bool
  | popped _ | handed _ _ _ | counted _ => true
  | _ => false

theorem Open.cons {es : List Effect} {fd : ℤ} (h : Open es fd) (e : Effect) :
    Open (e :: es) fd := by
  obtain ⟨before, after, hsplit, hstill⟩ := h
  exact ⟨e :: before, after, by rw [hsplit, List.cons_append], hstill⟩

/-! ## The protocol -/

/-- What may happen next, given the open descriptor. -/
inductive Allowed : Option ℤ → Effect → Option ℤ → Prop
  | opened (fd : ℤ) : Allowed none (.opened fd) (some fd)
  | closed (fd : ℤ) : Allowed (some fd) (.closed fd) none
  | popped (fd : ℤ) (frame : TelemetryFrame) : Allowed (some fd) (.popped frame) (some fd)
  | handed (fd : ℤ) (frame : TelemetryFrame) (payload : Bytes) :
      Allowed (some fd) (.handed fd frame payload) (some fd)
  | counted (fd : ℤ) (sent : Bool) : Allowed (some fd) (.counted sent) (some fd)
  | startReturned (fd : ℤ) : Allowed (some fd) .startReturned (some fd)
  | startThrew (o : Option ℤ) (e : CppException) : Allowed o (.startThrew e) o
  | stopReturned : Allowed none .stopReturned none
  | accepted (o : Option ℤ) (frame : TelemetryFrame) : Allowed o (.accepted frame) o
  | rejected (o : Option ℤ) (frame : TelemetryFrame) : Allowed o (.rejected frame) o

/-- The protocol, from no open descriptor. -/
def protocol : Transitions (Option ℤ) Effect where
  initial o := o = none
  step := Allowed

section Protocol

variable {o o' : Option ℤ} {es : List Effect} {fd : ℤ}

/-- Everything opened has been closed, in order, but for the open descriptor. -/
theorem opened_eq_closed (h : protocol.Run o es o') :
    o.toList ++ openedDescriptors es = closedDescriptors es ++ o'.toList := by
  induction es generalizing o with
  | nil =>
    rw [run_nil_iff.mp h]
    exact List.append_nil _
  | cons e es ih =>
    obtain ⟨o₁, hstep, hrun⟩ := run_cons_iff.mp h
    have hrest := ih hrun
    cases hstep with
    | opened fd => exact hrest
    | closed fd => exact congrArg (fd :: ·) hrest
    | _ => exact hrest

/-- The open descriptor at the end was there at the start, or has been opened since. -/
theorem open_of_run (h : protocol.Run o es (some fd)) :
    (o = some fd ∧ openedDescriptors es = [] ∧ closedDescriptors es = []) ∨ Open es fd := by
  induction es generalizing o with
  | nil => exact Or.inl ⟨run_nil_iff.mp h, rfl, rfl⟩
  | cons e es ih =>
    obtain ⟨o₁, hstep, hrun⟩ := run_cons_iff.mp h
    rcases ih hrun with ⟨rfl, hopened, hclosed⟩ | hopen
    · cases hstep with
      | opened fd => exact Or.inr ⟨[], es, rfl, hopened, hclosed⟩
      | _ => exact Or.inl ⟨rfl, hopened, hclosed⟩
    · exact Or.inr (hopen.cons e)

/-- From the start, the protocol knows the open descriptor. -/
theorem open_iff (h : protocol.Run none es o) : Open es fd ↔ o = some fd := by
  constructor
  · rintro ⟨before, after, rfl, hopened, hclosed⟩
    obtain ⟨o₁, o₂, -, hstep, hrun⟩ := run_split_iff.mp h
    have hbalance := opened_eq_closed hrun
    rw [hopened, hclosed] at hbalance
    cases hstep
    exact Option.toList_eq_singleton_iff.mp hbalance.symm
  · rintro rfl
    exact (open_of_run h).resolve_left fun hnone => by cases hnone.1

end Protocol

/-! ## What the control thread knows -/

/-- What holds of the flag and the descriptor at a control point. -/
def ControlPc.Knows : ControlPc → Bool → ℤ → Prop
  | .idle, running, fd | .starting, running, fd | .stopping, running, fd =>
    running = true ↔ 0 ≤ fd
  | .opening, running, fd => running = false ∧ fd < 0
  | .raising, running, fd | .joining, running, fd | .closing, running, fd =>
    running = false ∧ 0 ≤ fd
  | .spawning, running, fd | .clearing, running, fd => running = true ∧ 0 ≤ fd

theorem down_of_lowered {running : Bool} {fd : ℤ} (h : running = true ↔ 0 ≤ fd)
    (hrun : running = false) : fd < 0 := by
  refine not_le.mp fun hfd => ?_
  rw [h.mpr hfd] at hrun
  cases hrun

section Threads

variable {Tid : Type} [DecidableEq Tid] {L : JsonLibrary} {cfg : DispatcherConfig}

/-- The invariant of the flag and the descriptor. -/
structure Sockets (s : State Tid) : Prop where
  knows : s.control.Knows s.dispatcher.m_running s.dispatcher.m_sock_fd
  /-- `start` never assigns to a joinable thread. -/
  spawning : s.control = .spawning → s.m_thread = none

theorem Sockets.open_of_running {s : State Tid} (hs : Sockets s)
    (hrun : s.dispatcher.m_running = true) : 0 ≤ s.dispatcher.m_sock_fd := by
  have hknows := hs.knows
  rw [hrun] at hknows
  cases hc : s.control <;> simp [hc, ControlPc.Knows] at hknows <;> exact hknows

/-- A lowered flag is the mark of a stopped thread, but for the join. -/
theorem Live.detached {s : State Tid} (hs : Live s) (hrun : s.dispatcher.m_running = false)
    (hne : s.control ≠ .joining) : s.m_thread = none := by
  cases hthread : s.m_thread with
  | none => rfl
  | some i =>
    rcases hs.running i hthread with hup | hjoin
    · rw [hrun] at hup
      cases hup
    · exact absurd hjoin hne

/-- The control thread stays where it is. -/
theorem Sockets.of_same {s s' : State Tid} (hs : Sockets s)
    (hrun : s'.dispatcher.m_running = s.dispatcher.m_running)
    (hfd : s'.dispatcher.m_sock_fd = s.dispatcher.m_sock_fd) (hcontrol : s'.control = s.control)
    (hthread : s'.m_thread = s.m_thread) : Sockets s' := by
  refine ⟨?_, ?_⟩
  · rw [hrun, hfd, hcontrol]
    exact hs.knows
  · rw [hcontrol, hthread]
    exact hs.spawning

theorem enqueue_m_sock_fd (d : Dispatcher) (frame : TelemetryFrame) :
    (d.enqueue cfg frame).2.m_sock_fd = d.m_sock_fd := by
  unfold Dispatcher.enqueue
  split <;> rfl

theorem Sockets.step {s s' : State Tid} {l : Label Tid} (hs : Sockets s) (hlive : Live s)
    (h : Step L cfg s l s') : Sockets s' := by
  have hknows := hs.knows
  cases h with
  | call t frame h => exact hs.of_same rfl rfl rfl rfl
  | enqueue t frame h =>
    exact hs.of_same (enqueue_m_running s.dispatcher frame) (enqueue_m_sock_fd s.dispatcher frame)
      rfl rfl
  | start h | startRunning h | stop h | stopStopped h =>
    rw [h] at hknows
    exact ⟨hknows, by rintro ⟨⟩⟩
  | startStopped h hrun =>
    rw [h] at hknows
    exact ⟨⟨hrun, down_of_lowered hknows hrun⟩, by rintro ⟨⟩⟩
  | socketFails fd h hfd =>
    rw [h] at hknows
    have hiff : s.dispatcher.m_running = true ↔ 0 ≤ fd := by
      rw [hknows.1]
      exact ⟨by rintro ⟨⟩, fun hge => absurd hfd (not_lt.mpr hge)⟩
    exact ⟨hiff, by rintro ⟨⟩⟩
  | socket fd h hfd =>
    rw [h] at hknows
    exact ⟨⟨hknows.1, hfd⟩, by rintro ⟨⟩⟩
  | raise h =>
    rw [h] at hknows
    exact ⟨⟨rfl, hknows.2⟩, fun _ => hlive.detached hknows.1 (by simp [h])⟩
  | spawnFails h | spawn h =>
    rw [h] at hknows
    have hiff : s.dispatcher.m_running = true ↔ 0 ≤ s.dispatcher.m_sock_fd :=
      ⟨fun _ => hknows.2, fun _ => hknows.1⟩
    exact ⟨hiff, by rintro ⟨⟩⟩
  | spawnJoinable i h hthread =>
    rw [hs.spawning h] at hthread
    cases hthread
  | stopRunning h hrun =>
    rw [h] at hknows
    exact ⟨⟨hrun, hknows.mp hrun⟩, by rintro ⟨⟩⟩
  | clear h =>
    rw [h] at hknows
    exact ⟨⟨rfl, hknows.2⟩, by rintro ⟨⟩⟩
  | joinNone h | join i h =>
    rw [h] at hknows
    exact ⟨hknows, by rintro ⟨⟩⟩
  | close h hfd =>
    rw [h] at hknows
    have hiff : s.dispatcher.m_running = true ↔ (0 : ℤ) ≤ -1 := by
      rw [hknows.1]
      decide
    exact ⟨hiff, by rintro ⟨⟩⟩
  | closeNone h hfd =>
    rw [h] at hknows
    exact absurd hknows.2 (not_le.mpr hfd)
  | count i frame sent h => exact hs.of_same (by cases sent <;> rfl) (by cases sent <;> rfl) rfl rfl
  | check | sleep | drained | pop | serialize | serializeThrows | send =>
    exact hs.of_same rfl rfl rfl rfl

theorem sockets_reachable {s : State Tid} (h : (system Tid L cfg).Reachable s) : Sockets s := by
  refine h.induct (fun s hs => ?_) fun s l s' hr hs hstep =>
    hs.step (live_reachable hr) (step_of_next hstep).2
  obtain rfl : s = {} := hs
  have hiff : false = true ↔ (0 : ℤ) ≤ -1 := by decide
  exact ⟨hiff, by rintro ⟨⟩⟩

/-- A loop that has not returned finds a descriptor in `m_sock_fd`. -/
theorem open_of_alive {s : State Tid} (h : (system Tid L cfg).Reachable s) {i : ℕ}
    (hi : s.loops i ≠ .exited) : 0 ≤ s.dispatcher.m_sock_fd := by
  have hs := sockets_reachable h
  have hthread := (inv_reachable h).attached i hi
  rcases (live_reachable h).running i hthread with hrun | hjoin
  · exact hs.open_of_running hrun
  · have hknows := hs.knows
    rw [hjoin] at hknows
    exact hknows.2

/-! ## The threads refine the protocol -/

/-- The open descriptor. -/
def State.descriptor (s : State Tid) : Option ℤ :=
  if 0 ≤ s.dispatcher.m_sock_fd then some s.dispatcher.m_sock_fd else none

theorem descriptor_of_open {s : State Tid} (h : 0 ≤ s.dispatcher.m_sock_fd) :
    s.descriptor = some s.dispatcher.m_sock_fd :=
  if_pos h

theorem descriptor_of_down {s : State Tid} (h : s.dispatcher.m_sock_fd < 0) :
    s.descriptor = none :=
  if_neg (not_le.mpr h)

/-- A step shows `es`, and the protocol allows it. -/
def Shows (s s' : State Tid) (es : List Effect) : Prop :=
  s'.log = s.log ++ es ∧ protocol.Run s.descriptor es s'.descriptor

theorem shows_nothing {s s' : State Tid} (hlog : s'.log = s.log)
    (hfd : s'.dispatcher.m_sock_fd = s.dispatcher.m_sock_fd) : Shows s s' [] := by
  have hdescriptor : s'.descriptor = s.descriptor := by
    unfold State.descriptor
    rw [hfd]
  refine ⟨by rw [hlog, List.append_nil], ?_⟩
  rw [hdescriptor]
  exact .nil _

theorem shows_one {s s' : State Tid} {e : Effect} {o o' : Option ℤ} (hlog : s'.log = s.log ++ [e])
    (hbefore : s.descriptor = o) (hafter : s'.descriptor = o') (hallowed : Allowed o e o') :
    Shows s s' [e] := by
  refine ⟨hlog, ?_⟩
  rw [hbefore, hafter]
  exact .single hallowed

/-- A step that leaves the descriptor open. -/
theorem shows_open {s s' : State Tid} {e : Effect} (hlog : s'.log = s.log ++ [e])
    (hfd : s'.dispatcher.m_sock_fd = s.dispatcher.m_sock_fd) (hopen : 0 ≤ s.dispatcher.m_sock_fd)
    (hallowed : Allowed (some s.dispatcher.m_sock_fd) e (some s.dispatcher.m_sock_fd)) :
    Shows s s' [e] := by
  have hafter : s'.descriptor = some s.dispatcher.m_sock_fd := by
    rw [descriptor_of_open (by rw [hfd]; exact hopen), hfd]
  exact shows_one hlog (descriptor_of_open hopen) hafter hallowed

theorem shows_of_step {s s' : State Tid} {l : Label Tid} (hr : (system Tid L cfg).Reachable s)
    (h : Step L cfg s l s') : ∃ es, Shows s s' es := by
  have hs := sockets_reachable hr
  have hknows := hs.knows
  have halive := fun i => open_of_alive hr (i := i)
  cases h with
  | call | start | startStopped | raise | spawnJoinable | stop | stopRunning | clear | joinNone
  | join | check | sleep | drained | serialize | serializeThrows =>
    exact ⟨[], shows_nothing rfl rfl⟩
  | enqueue t frame h =>
    have hfd := @enqueue_m_sock_fd cfg s.dispatcher frame
    have hsame : ∀ e, Allowed s.descriptor e s.descriptor → (∃ es, Shows s ({ s with
        dispatcher := (s.dispatcher.enqueue cfg frame).2
        callers := Function.update s.callers t none }.record [e]) es) := by
      intro e hallowed
      refine ⟨_, shows_one rfl rfl ?_ hallowed⟩
      simp only [State.descriptor, State.record, hfd]
    cases (s.dispatcher.enqueue cfg frame).1 with
    | true => exact hsame _ (.accepted _ frame)
    | false => exact hsame _ (.rejected _ frame)
  | startRunning h hrun =>
    exact ⟨_, shows_open rfl rfl (hs.open_of_running hrun) (.startReturned _)⟩
  | socketFails fd h hfd =>
    rw [h] at hknows
    exact ⟨_, shows_one rfl (descriptor_of_down hknows.2) (descriptor_of_down hfd)
      (.startThrew none _)⟩
  | socket fd h hfd =>
    rw [h] at hknows
    exact ⟨_, shows_one rfl (descriptor_of_down hknows.2) (descriptor_of_open hfd) (.opened fd)⟩
  | spawnFails h =>
    rw [h] at hknows
    exact ⟨_, shows_open rfl rfl hknows.2 (.startThrew _ _)⟩
  | spawn h hthread =>
    rw [h] at hknows
    exact ⟨_, shows_open rfl rfl hknows.2 (.startReturned _)⟩
  | stopStopped h hrun =>
    rw [h] at hknows
    have hdown := down_of_lowered hknows hrun
    exact ⟨_, shows_one rfl (descriptor_of_down hdown) (descriptor_of_down hdown) .stopReturned⟩
  | close h hfd =>
    have hafter : (State.descriptor (({ s with
        dispatcher := { s.dispatcher with m_sock_fd := -1 } }.toControl .idle).record
          [.closed s.dispatcher.m_sock_fd, .stopReturned])) = none := rfl
    refine ⟨[.closed s.dispatcher.m_sock_fd, .stopReturned], rfl, ?_⟩
    rw [descriptor_of_open hfd, hafter]
    exact .cons (.closed _) (.single .stopReturned)
  | closeNone h hfd =>
    rw [h] at hknows
    exact absurd hknows.2 (not_le.mpr hfd)
  | pop i frame rest h hq =>
    exact ⟨_, shows_open rfl rfl (halive i (by simp [h])) (.popped _ frame)⟩
  | send i net frame payload h =>
    exact ⟨_, shows_open rfl rfl (halive i (by simp [h])) (.handed _ frame payload)⟩
  | count i frame sent h =>
    refine ⟨_, shows_open rfl ?_ (halive i (by simp [h])) (.counted _ sent)⟩
    cases sent <;> rfl

/-- The log is a run of the protocol, and `m_sock_fd` holds its open descriptor. -/
theorem refines_protocol : Refines (system Tid L cfg) protocol State.descriptor State.log where
  initial s hs := by
    obtain rfl : s = {} := hs
    exact ⟨rfl, rfl⟩
  step s l s' hr hstep := shows_of_step hr (step_of_next hstep).2

theorem protocol_run {s : State Tid} (h : (system Tid L cfg).Reachable s) :
    protocol.Run none s.log s.descriptor := by
  obtain ⟨o, ho, hrun⟩ := refines_protocol.reachable h
  obtain rfl : o = none := ho
  exact hrun

/-! ## Calls without effect -/

/-- A step of the control thread. -/
def Label.ofControl : Label Tid → Bool
  | start | stop | control | socket _ | spawn _ => true
  | _ => false

/-- The effects that say how `start` and `stop` ended. -/
def Effect.isReturn : Effect → Bool
  | startReturned | startThrew _ | stopReturned => true
  | _ => false

/-- The state without where the control thread stands and how its calls ended. -/
def State.forget (s : State Tid) : State Tid :=
  { s with control := .idle, log := s.log.filter fun e => !e.isReturn }

/-- The other threads do not look at what is forgotten. -/
theorem step_forget {s s' : State Tid} {l : Label Tid} (hl : l.ofControl = false)
    (hnext : next L cfg s l = some s') : next L cfg s.forget l = some s'.forget := by
  obtain ⟨hterm, hstep⟩ := step_of_next hnext
  cases hstep with
  | call t frame h => simp [next, State.forget, hterm, h]
  | enqueue t frame h =>
    cases he : (s.dispatcher.enqueue cfg frame).1 <;>
      simp [next, enqueueStep, State.forget, State.record, Effect.isReturn, hterm, h, he]
  | check i h | sleep i h => simp [next, loopStep, State.forget, State.toLoop, hterm, h]
  | drained i h hq | serialize _ _ _ h hq | serializeThrows _ _ _ h hq =>
    simp [next, loopStep, State.forget, State.toLoop, hterm, h, hq]
  | pop i frame rest h hq =>
    simp [next, loopStep, State.forget, State.toLoop, State.record, Effect.isReturn, hterm, h, hq]
  | send i net frame payload h =>
    simp [next, sendStep, State.forget, State.toLoop, State.record, Effect.isReturn, hterm, h]
  | count i frame sent h =>
    simp [next, loopStep, State.forget, State.toLoop, State.record, Effect.isReturn, hterm, h]
  | _ => cases hl

/-- A step to another control point that shows only how a call ended is forgotten. -/
theorem forget_of_return (s : State Tid) (c : ControlPc) {e : Effect} (he : e.isReturn = true) :
    ((s.toControl c).record [e]).forget = s.forget := by
  simp [State.forget, State.record, State.toControl, he]

/-- The control thread is outside its methods, or finds nothing to do in one. -/
def Passing (s : State Tid) : Prop :=
  s.control = .idle ∨ (s.control = .starting ∧ s.dispatcher.m_running = true) ∨
    (s.control = .stopping ∧ s.dispatcher.m_running = false)

/-- The label calls `start` or `stop`. -/
def Label.callsControl : Label Tid → Bool
  | start | stop => true
  | _ => false

theorem Passing.of_same {s s' : State Tid} (hs : Passing s)
    (hrun : s'.dispatcher.m_running = s.dispatcher.m_running)
    (hcontrol : s'.control = s.control) : Passing s' := by
  unfold Passing
  rw [hrun, hcontrol]
  exact hs

theorem Passing.step {s s' : State Tid} {l : Label Tid} (hs : Passing s) (h : Step L cfg s l s')
    (hl : l.callsControl = false) : Passing s' ∧ (l.ofControl = true → s'.forget = s.forget) := by
  cases h with
  | call t frame h => exact ⟨hs.of_same rfl rfl, by rintro ⟨⟩⟩
  | enqueue t frame h =>
    exact ⟨hs.of_same (enqueue_m_running s.dispatcher frame) rfl, by rintro ⟨⟩⟩
  | start | stop => cases hl
  | startRunning h hrun => exact ⟨Or.inl rfl, fun _ => forget_of_return s .idle rfl⟩
  | stopStopped h hrun => exact ⟨Or.inl rfl, fun _ => forget_of_return s .idle rfl⟩
  | startStopped h hrun | stopRunning h hrun =>
    simp [Passing, h, hrun] at hs
  | socketFails _ h | socket _ h | raise h | spawnFails h | spawnJoinable _ h | spawn h | clear h
  | joinNone h | join _ h | close h | closeNone h =>
    simp [Passing, h] at hs
  | count i frame sent h => exact ⟨hs.of_same (by cases sent <;> rfl) rfl, by rintro ⟨⟩⟩
  | check | sleep | drained | pop | serialize | serializeThrows | send =>
    exact ⟨hs.of_same rfl rfl, by rintro ⟨⟩⟩

/-- A call that finds nothing to do at `s` : `start` while running, `stop` while stopped. -/
def Ignored (s : State Tid) (l : Label Tid) : Prop :=
  (l = .start ∧ s.dispatcher.m_running = true) ∨ (l = .stop ∧ s.dispatcher.m_running = false)

theorem Ignored.passing {s s' : State Tid} {l : Label Tid} (hl : Ignored s l)
    (h : Step L cfg s l s') : Passing s' ∧ s'.forget = s.forget := by
  rcases hl with ⟨rfl, hrun⟩ | ⟨rfl, hrun⟩
  · cases h
    exact ⟨Or.inr (Or.inl ⟨rfl, hrun⟩), rfl⟩
  · cases h
    exact ⟨Or.inr (Or.inr ⟨rfl, hrun⟩), rfl⟩

/-- Without the steps of an ignored call, the run of the other threads is the same. -/
theorem run_of_ignored {s s' : State Tid} {l : Label Tid} {ls : List (Label Tid)}
    (hl : Ignored s l) (h : (system Tid L cfg).Run s (l :: ls) s')
    (hls : ∀ k ∈ ls, k.callsControl = false) :
    (system Tid L cfg).Run s.forget (ls.filter fun k => !k.ofControl) s'.forget := by
  obtain ⟨s₁, hstep, hrun⟩ := run_cons_iff.mp h
  obtain ⟨hpassing, hforget⟩ := hl.passing (step_of_next hstep).2
  rw [← hforget]
  refine hrun.erase (fun u k u' hk hu => step_forget (by simpa using hk) hu) ?_
  rintro js k ks u u' rfl hjs hu - hk
  have hu' : Passing u :=
    hjs.induct (I := Passing) (P := fun k => k.callsControl = false)
      (fun v j v' hj hv hv' => (hv.step (step_of_next hv').2 hj).1)
      (fun j hj => hls j (List.mem_append_left _ hj)) hpassing
  have hkcalls := hls k (List.mem_append_right _ List.mem_cons_self)
  exact (hu'.step (step_of_next hu).2 hkcalls).2 (by simpa using hk)

/-! ## The result -/

variable (L cfg) in
/-- Datagrams go out on the live socket of a running dispatcher. -/
structure LiveSocket (s : State Tid) : Prop where
  /-- At most one loop is alive. -/
  single : ∀ i j, s.loops i ≠ .exited → s.loops j ≠ .exited → i = j
  /-- While a loop is alive, `m_sock_fd` is the descriptor of the last `start` that opened one,
  and it is not closed. -/
  alive : ∀ i, s.loops i ≠ .exited → Open s.log s.dispatcher.m_sock_fd
  /-- So was the descriptor of every `sendto`. -/
  handed : ∀ before after fd frame payload,
    s.log = before ++ .handed fd frame payload :: after → Open before fd
  /-- The closed descriptors are the opened ones in order, and at most one is still open. -/
  closed : ∃ rest, openedDescriptors s.log = closedDescriptors s.log ++ rest ∧ rest.length ≤ 1
  /-- When `stop` returns, each opened descriptor has been closed, and only once. -/
  stopped : ∀ before after, s.log = before ++ .stopReturned :: after →
    openedDescriptors before = closedDescriptors before
  /-- No pop, send or count after the return of a `stop` until a `start` has opened again. -/
  quiet : ∀ before between e after, s.log = before ++ .stopReturned :: (between ++ e :: after) →
    e.ofLoop = true → openedDescriptors between ≠ []
  /-- A `start` while running or a `stop` while stopped changes nothing. -/
  ignored : ∀ l ls s', Ignored s l → (system Tid L cfg).Run s (l :: ls) s' →
    (∀ k ∈ ls, k.callsControl = false) →
    (system Tid L cfg).Run s.forget (ls.filter fun k => !k.ofControl) s'.forget

/-- A loop shows effects only while a descriptor is open. -/
theorem Allowed.open_of_loop {o o' : Option ℤ} {e : Effect} (h : Allowed o e o')
    (he : e.ofLoop = true) : o ≠ none := by
  cases h with
  | popped | handed | counted => exact Option.some_ne_none _
  | _ => cases he

theorem liveSocket {s : State Tid} (h : (system Tid L cfg).Reachable s) :
    LiveSocket L cfg s := by
  have hlog := protocol_run h
  have hinv := inv_reachable h
  exact {
    single := by
      intro i j hi hj
      have hthread := (hinv.attached i hi).symm.trans (hinv.attached j hj)
      exact Option.some.inj hthread
    alive := by
      intro i hi
      exact (open_iff hlog).mpr (descriptor_of_open (open_of_alive h hi))
    handed := by
      intro before after fd frame payload hsplit
      rw [hsplit] at hlog
      obtain ⟨o, o', hbefore, hstep, -⟩ := run_split_iff.mp hlog
      cases hstep
      exact (open_iff hbefore).mpr rfl
    closed := by
      refine ⟨s.descriptor.toList, opened_eq_closed hlog, ?_⟩
      cases s.descriptor <;> simp
    stopped := by
      intro before after hsplit
      rw [hsplit] at hlog
      obtain ⟨o, o', hbefore, hstep, -⟩ := run_split_iff.mp hlog
      have hbalance := opened_eq_closed hbefore
      cases hstep
      simpa using hbalance
    quiet := by
      intro before between e after hsplit he hnone
      rw [hsplit] at hlog
      obtain ⟨o, o₁, -, hstop, hrest⟩ := run_split_iff.mp hlog
      obtain ⟨o₂, o₃, hbetween, hloop, -⟩ := run_split_iff.mp hrest
      have hbalance := opened_eq_closed hbetween
      cases hstop
      rw [hnone] at hbalance
      refine hloop.open_of_loop he (Option.toList_eq_nil_iff.mp ?_)
      exact (List.append_eq_nil_iff.mp hbalance.symm).2
    ignored := by
      intro l ls s' hl hrun hls
      exact run_of_ignored hl hrun hls }

end Threads

/-! ## A restart -/

open TelemetrySerializer (nominalText)
open Transitions (exec reachable_of_exec)

/-- One frame goes out, `stop` and `start` are called once more than needed, and a second loop
is created and stopped before it does anything. -/
def restart : List (Label Unit) :=
  enqueueOne ++ [.start, .control, .loop 0, .loop 0, .loop 0, .loop 0,
    .send 0 ⟨1, nominalText.length⟩, .loop 0, .stop, .control, .control, .loop 0, .loop 0, .control,
    .control, .stop, .control, .start, .control, .socket 4, .control, .spawn true, .stop, .control,
    .control, .loop 1, .control, .control]

def restarted : State Unit :=
  (exec (next frameLibrary {}) {} restart).get (by decide +kernel)

theorem liveSocket_restarted : LiveSocket frameLibrary {} restarted ∧
    closedDescriptors restarted.log = [3, 4] :=
  ⟨liveSocket (reachable_of_exec restart (Option.some_get _).symm), by decide +kernel⟩

end Downlink

end Obcsw
