import Obcsw.Process
import Obcsw.SafeMode

/-!
# The main thread

Seen from `main`, the other threads are the answers of `enqueue`. `sequential` is `main` on its
own, from the banner to the call of `stop`, with the answers brought by the ticks; the process
follows it (`sequentially`) : whatever the dispatcher's threads, the sockets and the signals do
in between, `main` has shown what `sequential` shows on the ticks so far, its variables are
those `sequential` ends with, and the answers in the ticks are the ones the dispatcher gave.

So what is proved of the loop for every list of ticks holds of the process.
-/

set_option linter.unusedSectionVars false

open Exceptions Program

namespace Obcsw

namespace Process

open Downlink (Effect)
open Main

section MainThread

variable {cfg : SatelliteConfig}

/-! ## `main` on its own -/

/-- `main` from the banner to the call of `stop`. -/
def sequential (L : JsonLibrary) (uplinks : List Uplink) (ticks : List Tick) :
    Obc (MainState cfg) PUnit := do
  emit (.cout (banner cfg))
  inject cfg L uplinks
  loop cfg (registerCommandHandlers L {}) ticks

variable {L : JsonLibrary} {uplinks : List Uplink} {es es' : List Event} {w w' : MainState cfg}

/-- The injections always return. -/
theorem inject_returns (L : JsonLibrary) (uplinks : List Uplink) (s : MainState cfg) :
    ∃ es q, (inject cfg L uplinks).Returns s es ⟨⟩ { s with cmd_queue := q } ∧
      q.m_queue = (s.cmd_queue.m_queue ++ uplinks.filterMap (decoded L)).take
        cfg.command_max_queue_depth.toNat ∧ Event.enqueued es = [] ∧
      Event.dispatched es = [] := by
  obtain ⟨q, hinject, hq⟩ := injectAll_returns (L := L) uplinks s
  refine ⟨_, q, hinject.bind rfl, hq, ?_, ?_⟩
  · rw [Event.enqueued_append]
    refine List.append_eq_nil_iff.mpr ⟨List.filterMap_eq_nil_iff.mpr fun e he => ?_, rfl⟩
    obtain ⟨uplink, -, he⟩ := List.mem_flatMap.mp he
    unfold reports at he
    split at he
    · cases he
    · obtain rfl := List.mem_singleton.mp he
      rfl
  · rw [Event.dispatched_append, dispatched_reports]
    rfl

theorem inject_not_throws {s s' : MainState cfg} {e : CppException} :
    ¬(inject cfg L uplinks).Throws s es e s' := by
  obtain ⟨es', q, hret, -⟩ := inject_returns L uplinks s
  exact hret.not_throws

/-- Before the first iteration. -/
theorem sequential_nil (hinject : (inject cfg L uplinks).Returns {} es ⟨⟩ w) :
    (sequential L uplinks []).Returns {} (.cout (banner cfg) :: es) ⟨⟩ w := by
  have hloop : (loop cfg (registerCommandHandlers L {}) []).Returns w [] ⟨⟩ w := rfl
  have hboth := hinject.bind (f := fun _ => loop cfg (registerCommandHandlers L {}) []) hloop
  rw [List.append_nil] at hboth
  exact Prog.Returns.bind (m := emit (Event.cout (banner cfg))) rfl hboth

theorem loop_snoc (H : CommandHandler (MainState cfg)) : ∀ (ticks : List Tick) (tick : Tick),
    loop cfg H (ticks ++ [tick]) = loop cfg H ticks >>= fun _ => iteration cfg H tick
  | [], tick => bind_pure_self (iteration cfg H tick)
  | first :: ticks, tick => by
    rw [List.cons_append, loop_cons, loop_cons, bind_assoc]
    simp only [loop_snoc H ticks tick]

/-- One more iteration. -/
theorem sequential_snoc (L : JsonLibrary) (uplinks : List Uplink) (ticks : List Tick)
    (tick : Tick) : (sequential L uplinks (ticks ++ [tick]) : Obc (MainState cfg) PUnit) =
      sequential L uplinks ticks >>= fun _ =>
        iteration cfg (registerCommandHandlers L {}) tick := by
  unfold sequential
  simp only [loop_snoc, bind_assoc]

section Snoc

variable {ticks : List Tick} {measure : UInt64 → Measurements} {enqueued : Bool}
  {es'' : List Event} {w'' : MainState cfg} {frame : TelemetryFrame}
  (hticks : (sequential L uplinks ticks).Returns {} es ⟨⟩ w)
  (hprepare : (prepare cfg measure).Returns w es' frame w')

include hticks hprepare

theorem sequential_concluded
    (hconclude : (conclude (registerCommandHandlers L {}) enqueued).Returns w' es'' ⟨⟩ w'') :
    (sequential L uplinks (ticks ++ [⟨measure, enqueued⟩])).Returns {} (es ++ es' ++ es'') ⟨⟩
      w'' := by
  rw [sequential_snoc, iteration_eq, List.append_assoc]
  exact hticks.bind (hprepare.bind hconclude)

theorem sequential_throws {e : CppException}
    (hconclude : (conclude (registerCommandHandlers L {}) enqueued).Throws w' es'' e w'') :
    (sequential L uplinks (ticks ++ [⟨measure, enqueued⟩])).Throws {} (es ++ es' ++ es'') e
      w'' := by
  rw [sequential_snoc, iteration_eq, List.append_assoc]
  exact hticks.bind_throws (hprepare.bind_throws hconclude)

end Snoc

/-! ## The process follows it -/

/-- `main` is in the middle of an iteration : `sequential` has run `ticks`, and the first part
of the next iteration has been run. -/
def Prepared (L : JsonLibrary) (uplinks : List Uplink) (s : State cfg) (ticks : List Tick)
    (measure : UInt64 → Measurements) : Prop :=
  ∃ es w es' frame, (sequential L uplinks ticks).Returns {} es ⟨⟩ w ∧
    (prepare cfg measure).Returns w es' frame s.vars ∧ s.events = es ++ es'

/-- `main` has left the loop, and shown `rest` since. -/
def Left (L : JsonLibrary) (uplinks : List Uplink) (s : State cfg) : Prop :=
  ∃ es rest, (sequential L uplinks s.ticks).Returns {} es ⟨⟩ s.vars ∧ s.events = es ++ rest ∧
    Event.enqueued rest = [] ∧ Event.dispatched rest = []

/-- Where `sequential` stands while `main` stands at its point. -/
def Follows (L : JsonLibrary) (uplinks : List Uplink) (s : State cfg) : Prop :=
  match s.pc with
  | .built => s.vars = {} ∧ s.ticks = [] ∧ s.events = []
  | .starting | .injecting =>
    s.vars = {} ∧ s.ticks = [] ∧ s.events = [.cout (banner cfg)]
  | .looping => (sequential L uplinks s.ticks).Returns {} s.events ⟨⟩ s.vars
  | .enqueueing measure => Prepared L uplinks s s.ticks measure
  | .concluding enqueued => ∃ ticks measure, s.ticks = ticks ++ [⟨measure, enqueued⟩] ∧
      Prepared L uplinks s ticks measure
  | .stopping | .reporting | .destroying | .exited => Left L uplinks s
  | .threw e => (s.ticks = [] ∧ s.events = [.cout (banner cfg)] ∧
      (e = Downlink.socketFailed ∨ e = Downlink.threadFailed)) ∨
    (sequential L uplinks s.ticks).Throws {} s.events e s.vars

/-- `main` moves to a point that `Follows` does not tell from where it was. -/
theorem Follows.of_same {s s' : State cfg} (hs : Follows L uplinks s) (hpc : s'.pc = s.pc)
    (hvars : s'.vars = s.vars) (hticks : s'.ticks = s.ticks) (hevents : s'.events = s.events) :
    Follows L uplinks s' := by
  unfold Follows Prepared Left at *
  rw [hpc, hvars, hticks, hevents]
  exact hs

theorem Follows.resumes {s s' : State cfg} {d : Downlink.State Unit} (hs : Follows L uplinks s)
    (h : Resumes s d s') : Follows L uplinks s' := by
  cases h with
  | still => exact hs.of_same rfl rfl rfl rfl
  | started hpc =>
    rw [Follows, hpc] at hs
    exact hs
  | failed hpc hcalls e he =>
    rw [Follows, hpc] at hs
    exact Or.inl ⟨hs.2.1, hs.2.2, he⟩
  | answered measure frame enqueued hpc =>
    rw [Follows, hpc] at hs
    exact ⟨s.ticks, measure, rfl, hs⟩
  | stopped hpc =>
    rw [Follows, hpc] at hs
    exact hs
  | destroyed hpc =>
    rw [Follows, hpc] at hs
    exact hs

theorem Follows.step {s s' : State cfg} {l : Label} (hs : Follows L uplinks s)
    (hknows : Knows s) (hend : s.pc.ended = false)
    (hr : (Downlink.system Unit L (dispatcherConfig cfg)).Reachable s.downlink)
    (h : Step L uplinks s l s') : Follows L uplinks s' := by
  cases h with
  | downlink k d hk hd =>
    exact hs.resumes (resumes_of_step hknows hend hk hr (Downlink.step_of_next hd).2)
  | signal => exact hs.of_same rfl rfl rfl rfl
  | start d h hd =>
    rw [Follows, h] at hs
    obtain ⟨hvars, hticks, hevents⟩ := hs
    refine ⟨hvars, hticks, ?_⟩
    simp only [State.ran, hevents, List.nil_append]
  | inject es vars h hrun =>
    rw [Follows, h] at hs
    obtain ⟨hvars, hticks, hevents⟩ := hs
    rw [hvars] at hrun
    have hnil := sequential_nil hrun
    simp only [Follows, State.ran, hticks, hevents, List.singleton_append]
    exact hnil
  | injectThrows es vars e h hrun => exact absurd hrun inject_not_throws
  | stop d h hdown hd =>
    rw [Follows, h] at hs
    exact ⟨s.events, [.cout shuttingDown], hs, rfl, rfl, rfl⟩
  | conclude enqueued es vars h hrun =>
    rw [Follows, h] at hs
    obtain ⟨ticks, measure, hticks, es₁, w, es₂, frame, hseq, hprep, hevents⟩ := hs
    have hdone := sequential_concluded hseq hprep hrun
    simp only [Follows, State.ran, hticks, hevents]
    exact hdone
  | concludeThrows enqueued es vars e h hrun =>
    rw [Follows, h] at hs
    obtain ⟨ticks, measure, hticks, es₁, w, es₂, frame, hseq, hprep, hevents⟩ := hs
    have hthrown := sequential_throws hseq hprep hrun
    refine Or.inr ?_
    simp only [State.ran, hticks, hevents]
    exact hthrown
  | report d h hd =>
    rw [Follows, h] at hs
    obtain ⟨es, rest, hseq, hevents, henq, hdis⟩ := hs
    refine ⟨es, rest ++ [.cout (report s.downlink.dispatcher)], hseq, ?_, ?_, ?_⟩
    · simp only [State.ran, hevents, List.append_assoc]
    · rw [Event.enqueued_append, henq]
      rfl
    · rw [Event.dispatched_append, hdis]
      rfl
  | iterate measure es vars frame d h hup hrun hd =>
    rw [Follows, h] at hs
    exact ⟨s.events, s.vars, es, frame, hs, hrun, rfl⟩
  | iterateThrows measure es vars e h hup hrun => exact absurd hrun prepare_not_throws

theorem follows_reachable {s : State cfg} (h : (system cfg L uplinks).Reachable s) :
    Follows L uplinks s := by
  refine h.induct (I := Follows L uplinks) (fun s hs => ?_) fun s l s' hr hs hstep => ?_
  · obtain rfl : s = {} := hs
    exact ⟨rfl, rfl, rfl⟩
  · obtain ⟨-, hend, hstep⟩ := step_of_next hstep
    exact hs.step (knows_reachable hr) hend (downlink_reachable hr) hstep

/-! ## The frames -/

variable (cfg) in
/-- The frames `gs` with the flags due after those of `hist` and those before them. -/
def dueFrom : List TelemetryFrame → List TelemetryFrame → List TelemetryFrame
  | _, [] => []
  | hist, g :: gs => flagged cfg hist g :: dueFrom (hist ++ [g]) gs

variable (cfg) in
/-- The frames of a run of the loop, in order. -/
def due (ticks : List Tick) : List TelemetryFrame :=
  dueFrom cfg [] (measuredFrom cfg 0 ticks)

theorem dueFrom_snoc (hist gs : List TelemetryFrame) (g : TelemetryFrame) :
    dueFrom cfg hist (gs ++ [g]) = dueFrom cfg hist gs ++ [flagged cfg (hist ++ gs) g] := by
  induction gs generalizing hist with
  | nil => rw [List.append_nil]; rfl
  | cons g' gs ih =>
    rw [List.cons_append, dueFrom, dueFrom, ih, List.cons_append, List.append_assoc,
      List.singleton_append]

theorem length_dueFrom (hist gs : List TelemetryFrame) :
    (dueFrom cfg hist gs).length = gs.length := by
  induction gs generalizing hist with
  | nil => rfl
  | cons g gs ih => rw [dueFrom, List.length_cons, List.length_cons, ih]

theorem measuredFrom_snoc (frame_id : UInt64) (ticks : List Tick) (tick : Tick) :
    measuredFrom cfg frame_id (ticks ++ [tick]) = measuredFrom cfg frame_id ticks ++
      [measured cfg (frame_id + UInt64.ofNat ticks.length) tick] := by
  induction ticks generalizing frame_id with
  | nil =>
    rw [List.nil_append, measuredFrom, measuredFrom, List.length_nil]
    simp [measuredFrom]
  | cons first ticks ih =>
    rw [List.cons_append, measuredFrom, ih, measuredFrom, List.cons_append, List.length_cons,
      UInt64.ofNat_add, UInt64.add_assoc, UInt64.add_comm 1]
    rfl

/-! ## The books of `main` -/

/-- The frame of an iteration after the ticks. -/
def nextFrame (s : State cfg) (measure : UInt64 → Measurements) : TelemetryFrame :=
  measured cfg (UInt64.ofNat s.ticks.length) ⟨measure, true⟩

/-- What the variables and the dispatcher hold after the ticks. -/
structure Books (s : State cfg) : Prop where
  /-- The completed calls of `enqueue` : the due frames with the answers in the ticks. -/
  calls : calls s.downlink.log = (due cfg s.ticks).zip (s.ticks.map Tick.enqueued)
  /-- Between two calls, the variables track the frames generated. -/
  between : (∀ measure, s.pc ≠ .enqueueing measure) →
    s.vars.frame_id = UInt64.ofNat s.ticks.length ∧
      Tracks s.vars (measuredFrom cfg 0 s.ticks)
  /-- In a call, they track one frame more, which is the one `enqueue` has been called with. -/
  calling : ∀ measure, s.pc = .enqueueing measure →
    s.vars.frame_id = UInt64.ofNat (s.ticks.length + 1) ∧
      Tracks s.vars (measuredFrom cfg 0 s.ticks ++ [nextFrame s measure]) ∧
      s.downlink.callers () =
        some (flagged cfg (measuredFrom cfg 0 s.ticks) (nextFrame s measure))

theorem books_init : Books ({} : State cfg) where
  calls := rfl
  between _ := ⟨rfl, rfl, rfl⟩
  calling _ h := nomatch h

/-- `main` moves between two calls, and touches the command queue at most. -/
theorem Books.move {s s' : State cfg} (hs : Books s) {pc : Pc} (hpc : s.pc = pc)
    (hfrom : ∀ measure, pc ≠ .enqueueing measure) (hto : ∀ measure, s'.pc ≠ .enqueueing measure)
    (hvars : ∃ q, s'.vars = { s.vars with cmd_queue := q }) (hticks : s'.ticks = s.ticks)
    (hcalls : Process.calls s'.downlink.log = Process.calls s.downlink.log) : Books s' := by
  obtain ⟨q, hvars⟩ := hvars
  obtain ⟨hid, htracks⟩ := hs.between (by rw [hpc]; exact hfrom)
  constructor
  · rw [hcalls, hticks]
    exact hs.calls
  · intro _
    rw [hvars, hticks]
    exact ⟨hid, htracks.safe_mode, htracks.fault_code⟩
  · exact fun measure h => absurd h (hto measure)

theorem length_due (ticks : List Tick) : (due cfg ticks).length = ticks.length := by
  rw [due, length_dueFrom, length_measuredFrom]

theorem due_snoc (ticks : List Tick) (tick : Tick) : due cfg (ticks ++ [tick]) =
    due cfg ticks ++ [flagged cfg (measuredFrom cfg 0 ticks)
      (measured cfg (UInt64.ofNat ticks.length) tick)] := by
  rw [due, measuredFrom_snoc, dueFrom_snoc, List.nil_append, UInt64.zero_add]
  rfl

/-- A call of `enqueue` returns. -/
theorem Books.answered {s : State cfg} (hs : Books s) {measure : UInt64 → Measurements}
    {frame : TelemetryFrame} {enqueued : Bool} {d : Downlink.State Unit}
    (hpc : s.pc = .enqueueing measure) (hframe : s.downlink.callers () = some frame)
    (hcalls : Process.calls d.log = Process.calls s.downlink.log ++ [(frame, enqueued)]) :
    Books ({ s with downlink := d }.answered measure enqueued) := by
  obtain ⟨hid, htracks, hcaller⟩ := hs.calling measure hpc
  obtain rfl := Option.some.inj (hframe.symm.trans hcaller)
  constructor
  · simp only [State.answered, hcalls, hs.calls, due_snoc, List.map_append]
    rw [List.zip_append (by rw [length_due, List.length_map])]
    rfl
  · intro _
    simp only [State.answered, measuredFrom_snoc, List.length_append, UInt64.zero_add]
    exact ⟨hid, htracks⟩
  · exact fun _ h => nomatch h

theorem Books.resumes {s s' : State cfg} {d : Downlink.State Unit} (hs : Books s)
    (h : Resumes s d s') : Books s' := by
  cases h with
  | still hcalls hcaller =>
    refine ⟨hcalls.trans hs.calls, hs.between, fun measure hpc => ?_⟩
    obtain ⟨hid, htracks, hframe⟩ := hs.calling measure hpc
    exact ⟨hid, htracks, hcaller.trans hframe⟩
  | started hpc hcalls | failed hpc hcalls | stopped hpc hcalls | destroyed hpc hcalls =>
    exact hs.move hpc nofun nofun ⟨_, rfl⟩ rfl hcalls
  | answered measure frame enqueued hpc hframe hcalls => exact hs.answered hpc hframe hcalls

/-- The rest of an iteration touches the command queue only. -/
theorem conclude_run (L : JsonLibrary) (enqueued : Bool) (s : MainState cfg) :
    ∃ q, ((conclude (registerCommandHandlers L {}) enqueued).run s).state =
      { s with cmd_queue := q } := by
  obtain ⟨hq, -⟩ := drainQueue_run (harmless_registered L) s
  cases enqueued <;> exact hq

theorem Books.step {s s' : State cfg} {l : Label} (hs : Books s)
    (hknows : Knows s) (hend : s.pc.ended = false)
    (hr : (Downlink.system Unit L (dispatcherConfig cfg)).Reachable s.downlink)
    (h : Step L uplinks s l s') : Books s' := by
  cases h with
  | downlink k d hk hd =>
    exact hs.resumes (resumes_of_step hknows hend hk hr (Downlink.step_of_next hd).2)
  | signal => exact ⟨hs.calls, hs.between, hs.calling⟩
  | start d h hd =>
    obtain rfl := eq_of_start hd
    exact hs.move h (by rintro _ ⟨⟩) (by rintro _ ⟨⟩) ⟨_, rfl⟩ rfl rfl
  | stop d h hdown hd =>
    obtain rfl := eq_of_stop hd
    exact hs.move h (by rintro _ ⟨⟩) (by rintro _ ⟨⟩) ⟨_, rfl⟩ rfl rfl
  | report d h hd =>
    obtain rfl := eq_of_stop hd
    exact hs.move h (by rintro _ ⟨⟩) (by rintro _ ⟨⟩) ⟨_, rfl⟩ rfl rfl
  | inject es vars h hrun =>
    obtain ⟨es', q, hret, -⟩ := inject_returns L uplinks s.vars
    rw [Prog.Returns, hrun] at hret
    exact hs.move h (by rintro _ ⟨⟩) (by rintro _ ⟨⟩) ⟨q, congrArg Outcome.state hret⟩ rfl rfl
  | injectThrows es vars e h hrun => exact absurd hrun inject_not_throws
  | conclude enqueued es vars h hrun =>
    obtain ⟨q, hq⟩ := conclude_run L enqueued s.vars
    rw [hrun] at hq
    exact hs.move h (by rintro _ ⟨⟩) (by rintro _ ⟨⟩) ⟨q, hq⟩ rfl rfl
  | concludeThrows enqueued es vars e h hrun =>
    obtain ⟨q, hq⟩ := conclude_run L enqueued s.vars
    rw [hrun] at hq
    exact hs.move h (by rintro _ ⟨⟩) (by rintro _ ⟨⟩) ⟨q, hq⟩ rfl rfl
  | iterate measure es vars frame d h hup hrun hd =>
    obtain rfl := eq_of_enqueue hd
    obtain ⟨hid, htracks⟩ := hs.between (by rw [h]; rintro _ ⟨⟩)
    obtain ⟨es', hret, -⟩ := prepare_returns s.vars measure
    rw [Prog.Returns, hrun] at hret
    obtain ⟨-, rfl, hframe⟩ := Outcome.mk.inj hret
    obtain rfl := Except.ok.inj hframe
    have hnext : generateFrame (measure s.vars.frame_id) s.vars.frame_id cfg.satellite_name =
        nextFrame s measure := by
      rw [hid]
      rfl
    have hflagged := flagged_eq htracks (nextFrame s measure)
    refine ⟨hs.calls, fun hne => absurd rfl (hne measure), ?_⟩
    rintro _ ⟨⟩
    refine ⟨?_, ?_, ?_⟩
    · simp only [State.ran, evaluated, hid, UInt64.ofNat_add]
      rfl
    · simp only [State.ran, hnext]
      exact htracks.evaluated (nextFrame s measure)
    · simp only [State.ran, hnext, Function.update_self]
      exact congrArg some hflagged.symm
  | iterateThrows measure es vars e h hup hrun => exact absurd hrun prepare_not_throws

theorem books_reachable {s : State cfg} (h : (system cfg L uplinks).Reachable s) : Books s := by
  refine h.induct (fun s hs => ?_) fun s l s' hr hs hstep => ?_
  · obtain rfl : s = {} := hs
    exact books_init
  · obtain ⟨-, hend, hstep⟩ := step_of_next hstep
    exact hs.step (knows_reachable hr) hend (downlink_reachable hr) hstep

/-! ## The result -/

/-- `main` is where `sequential` is, with the answers of the dispatcher for its ticks. -/
structure Sequentially (L : JsonLibrary) (uplinks : List Uplink) (s : State cfg) : Prop where
  follows : Follows L uplinks s
  /-- Every completed call of `enqueue` is that of one tick : its frame has the flags due, and
  its answer is the tick's. -/
  calls : calls s.downlink.log = (due cfg s.ticks).zip (s.ticks.map Tick.enqueued)

/-- Every reachable process follows the sequential program. -/
theorem sequentially {s : State cfg} (h : (system cfg L uplinks).Reachable s) :
    Sequentially L uplinks s :=
  ⟨follows_reachable h, (books_reachable h).calls⟩

end MainThread

/-! ## A process with one iteration -/

open Transitions (exec reachable_of_exec)

/-- From the start to the loop. -/
def takeOff : List Label :=
  [.main, .downlink .control, .downlink (.socket 3), .downlink .control, .downlink (.spawn true),
    .main]

/-- An iteration with low battery, and the rest of the process. -/
def iterateOnce : List Label :=
  [.iterate (Simulation.measure { battery_voltage_v := 6.0, obc_temp_c := 25.0 }),
    .downlink (.enqueue ()), .main]

def aloft : State {} :=
  (exec (next (.ofText [] .null) []) {} (takeOff ++ iterateOnce)).get (by decide +kernel)

theorem aloft_reachable : (system {} (.ofText [] .null) []).Reachable aloft :=
  reachable_of_exec (takeOff ++ iterateOnce) (Option.some_get _).symm

theorem sequentially_aloft : Sequentially (.ofText [] .null) [] aloft ∧
    aloft.ticks.length = 1 ∧ (calls aloft.downlink.log).map Prod.snd = [true] :=
  ⟨sequentially aloft_reachable, by decide +kernel, by decide +kernel⟩

end Process

end Obcsw
