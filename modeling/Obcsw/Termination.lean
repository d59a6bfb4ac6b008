import Mathlib.Tactic.DeriveCountable
import Obcsw.Fairness
import Obcsw.Survival

/-!
# Termination

Once a signal has lowered `g_running`, the process ends. `main` finishes its iteration and calls
`stop`, whose join waits for the dispatch loop; with the flag of the dispatcher cleared and
`main`, the only caller of `enqueue`, waiting, the loop empties the queue and returns. All this
supposes is that `main` and the loop are scheduled fairly (`ends`), and until the process has
ended one of the two can go on (`goesOn`).

`State.rank` counts the steps left to `main`, and behind the join those left to the loop;
`State.owes` says which of the two has to move.
-/

set_option linter.unusedSectionVars false

open Exceptions Program

namespace Obcsw

namespace Process

open Downlink (ControlPc LoopPc Inv Waiting)
open Main
open Transitions (InfiniteRun)
open Transitions.InfiniteRun (Advances)

/-! ## The threads -/

inductive Thread
  | main
  | loop (i : ℕ)
  deriving Countable, Inhabited

/-- The thread that takes the step. -/
def Label.thread : Label → Option Thread
  | main | iterate _ => some .main
  | downlink (.loop i) | downlink (.send i _) => some (.loop i)
  | downlink _ => some .main
  | signal => none

def Label.By (t : Thread) (l : Label) : Prop :=
  l.thread = some t

section Termination

variable {cfg : SatelliteConfig} {L : JsonLibrary} {uplinks : List Uplink} {s s' : State cfg}

/-- The process has ended. -/
def Ended (s : State cfg) : Prop :=
  s.pc.ended = true ∨ s.downlink.terminated = true

/-- The thread that has to move : the loop in the join, else `main`. -/
def State.owes (s : State cfg) : Thread :=
  match s.downlink.control, s.downlink.m_thread with
  | .joining, some i => if s.downlink.loops i = .exited then .main else .loop i
  | _, _ => .main

/-! ## The rank -/

/-- `stop` waits for the loop, or has done so. -/
def joins : ControlPc → Bool
  | .joining | .closing => true
  | _ => false

/-- The steps of `start` to its return, and of `stop` to the join. -/
def ahead : ControlPc → ℕ
  | .starting => 4
  | .opening => 3
  | .raising | .stopping => 2
  | .spawning | .clearing => 1
  | _ => 0

theorem ahead_pos {c : ControlPc} (h : inStart c = true) : 0 < ahead c := by
  cases c <;> simp [inStart, ahead] at h ⊢

theorem remaining_pos {c : ControlPc} (h : joins c = true) : 0 < c.remaining := by
  cases c <;> simp [joins, ControlPc.remaining] at h ⊢

/-- The steps behind the join are at most these. -/
def drainBound (cfg : SatelliteConfig) : ℕ :=
  4 * cfg.telemetry_max_frame_queue_depth.toNat + 7

/-- The steps left when `g_running` is down. -/
def State.rank (s : State cfg) : ℕ :=
  match s.pc with
  | .built => drainBound cfg + 11
  | .starting => drainBound cfg + 6 + ahead s.downlink.control
  | .enqueueing _ => drainBound cfg + 7
  | .injecting | .concluding _ => drainBound cfg + 6
  | .looping => drainBound cfg + 5
  | .stopping => if joins s.downlink.control then 2 + s.downlink.remaining
      else drainBound cfg + 2 + ahead s.downlink.control
  | .reporting => 2
  | .destroying => 1
  | .exited | .threw _ => 0

/-- The flag is down, and the state is reachable. -/
structure Closing (L : JsonLibrary) (uplinks : List Uplink) (s : State cfg) : Prop where
  reachable : (system cfg L uplinks).Reachable s
  down : s.g_running = false

/-- A step brings the end nearer, or leaves it where it is and was not owed. -/
def Nearer (L : JsonLibrary) (uplinks : List Uplink) : State cfg → Label → State cfg → Prop :=
  Advances Label.By (Closing L uplinks) Ended State.rank State.owes

/-- In the join and behind it, `stop` waits for the loop. -/
theorem waiting_of_joins (hr : (system cfg L uplinks).Reachable s)
    (h : joins s.downlink.control = true) : Waiting s.downlink := by
  have hdown := downlink_reachable hr
  have hknows := (Downlink.sockets_reachable hdown).knows
  cases hc : s.downlink.control with
  | joining =>
    rw [hc] at hknows
    exact ⟨hknows.1, Or.inl hc⟩
  | closing =>
    rw [hc] at hknows
    have hthread := (Downlink.live_reachable hdown).detached hknows.1 (by rw [hc]; exact nofun)
    exact ⟨hknows.1, Or.inr ⟨Or.inl hc, hthread⟩⟩
  | _ =>
    rw [hc] at h
    cases h

/-- Only in `stop` is there a join. -/
theorem stopping_of_joins (hr : (system cfg L uplinks).Reachable s) (hend : s.pc.ended = false)
    (h : joins s.downlink.control = true) : s.pc = .stopping := by
  have hknows := knows_reachable hr
  have hstop : inStop s.downlink.control = true := by
    cases hc : s.downlink.control <;> rw [hc] at h <;> first | rfl | cases h
  refine (hknows.stopping hend hstop).resolve_right ?_
  rintro ⟨-, hc, -⟩
  rw [hc] at h
  cases h

/-- A step of a loop. -/
theorem nearer_of_loop {k : Downlink.Label Unit} {d : Downlink.State Unit} {i : ℕ}
    (hs : Closing L uplinks s) (hs' : Closing L uplinks { s with downlink := d })
    (hend : s.pc.ended = false) (hterm : s.downlink.terminated = false)
    (h : Downlink.Step L (dispatcherConfig cfg) s.downlink k d) (hk : k.byLoop i)
    (hcontrol : d.control = s.downlink.control) :
    Nearer L uplinks s (.downlink k) { s with downlink := d } := by
  have hpay : k.pay = 0 ∧ k.callsControl = false ∧ (Label.downlink k).thread = some (.loop i) := by
    cases k <;> first
      | exact ⟨rfl, rfl, congrArg (some ∘ Thread.loop) hk⟩
      | exact absurd hk not_false
  obtain ⟨hpay, hcall, hthread⟩ := hpay
  cases hj : joins s.downlink.control with
  | true =>
    have hinv := Downlink.inv_reachable (downlink_reachable hs.reachable)
    have hpc := stopping_of_joins hs.reachable hend hj
    obtain ⟨-, hless⟩ := (waiting_of_joins hs.reachable hj).step hinv hterm h hcall
    refine .lower hs' ?_
    simp only [State.rank, hpc, hcontrol, hj, if_true]
    omega
  | false =>
    have hmain : ∀ d : Downlink.State Unit, joins d.control = false →
        State.owes { s with downlink := d } = .main := by
      intro d hd
      unfold State.owes
      cases hc : d.control <;> simp_all [joins]
    have howes : s.owes = .main := hmain s.downlink hj
    refine .wait hs' ?_ ?_ ?_
    · simp only [State.rank, hcontrol, hj, Bool.false_eq_true, if_false]
    · rw [howes]
      exact hmain d (by rw [hcontrol, hj])
    · rw [howes, Label.By, hthread]
      simp

/-- A method that does not return has not put the control thread at rest. -/
theorem busy_of_knows {pc : Pc} {c c' : ControlPc} {running running' : Bool}
    {frame frame' : Option TelemetryFrame} (h : pc.Knows c running frame) (hend : pc.ended = false)
    (hc : c ≠ .idle) (h' : pc.Knows c' running' frame') : c' ≠ .idle := by
  rintro rfl
  cases pc with
  | starting | stopping => cases h'.1
  | destroying => cases h'.1
  | exited | threw => cases hend
  | _ => exact hc h.1

/-- A step of the control thread in the middle of its method. -/
theorem rank_of_control {k : Downlink.Label Unit} {d : Downlink.State Unit}
    (hs : Closing L uplinks s) (hend : s.pc.ended = false) (hterm : s.downlink.terminated = false)
    (hk : k = .control ∨ (∃ fd, k = .socket fd) ∨ ∃ created, k = .spawn created)
    (h : Downlink.Step L (dispatcherConfig cfg) s.downlink k d) (hterm' : d.terminated = false)
    (hknows' : s.pc.Knows d.control d.dispatcher.m_running (d.callers ())) :
    State.rank { s with downlink := d } < s.rank := by
  have hknows := knows_reachable hs.reachable
  have hinv := Downlink.inv_reachable (downlink_reachable hs.reachable)
  have hbusy := fun hc => busy_of_knows hknows hend hc hknows'
  have hwaits : joins s.downlink.control = true → k.callsControl = false ∧ k.pay = 0 →
      joins d.control = true → State.rank { s with downlink := d } < s.rank := by
    intro hj ⟨hcall, hpay⟩ hj'
    have hpc := stopping_of_joins hs.reachable hend hj
    obtain ⟨-, hless⟩ := (waiting_of_joins hs.reachable hj).step hinv hterm h hcall
    simp only [State.rank, hpc, hj, hj', if_true]
    omega
  cases h with
  | startRunning h | socketFails _ h | spawnFails h | spawn h | stopStopped h | close h
  | closeNone h => exact absurd rfl (hbusy (by rw [h]; exact nofun))
  | spawnJoinable => cases hterm'
  | startStopped h | socket _ h | raise h =>
    have hpc := hknows.starting hend (by rw [h]; rfl)
    simp [State.rank, hpc, h, ahead, Downlink.State.toControl, Downlink.State.record]
  | stopRunning h hrun =>
    rcases hknows.stopping hend (by rw [h]; rfl) with hpc | ⟨-, -, hdown⟩
    · simp [State.rank, hpc, h, ahead, joins, Downlink.State.toControl]
    · rw [hrun] at hdown
      cases hdown
  | clear h =>
    rcases hknows.stopping hend (by rw [h]; rfl) with hpc | ⟨-, hc, -⟩
    · have hbound := hinv.bounded
      have hle := Downlink.State.remaining_le ({ s.downlink with
        dispatcher := { s.downlink.dispatcher with m_running := false } }.toControl .joining)
      simp only [State.rank, hpc, h, joins, ahead, drainBound, dispatcherConfig,
        Downlink.State.toControl, if_true, Bool.false_eq_true, if_false] at hbound hle ⊢
      omega
    · rw [h] at hc
      cases hc
  | joinNone h | join _ h => exact hwaits (by rw [h]; rfl) ⟨rfl, rfl⟩ rfl
  | _ => simp at hk

/-- A step of the dispatcher. -/
theorem nearer_of_downlink {k : Downlink.Label Unit} {d : Downlink.State Unit}
    (hs : Closing L uplinks s) (hs' : Closing L uplinks s') (hend : s.pc.ended = false)
    (hterm : s.downlink.terminated = false) (hk : k.isCall = false)
    (h : Downlink.Step L (dispatcherConfig cfg) s.downlink k d)
    (hresumes : Resumes s d s') : Nearer L uplinks s (.downlink k) s' := by
  have hknows := knows_reachable hs.reachable
  cases hterm' : d.terminated with
  | true =>
    refine .done (Or.inr ?_)
    rw [hresumes.downlink_eq, hterm']
  | false =>
    cases hresumes with
    | failed | destroyed => exact .done (Or.inl rfl)
    | started hpc =>
      rw [Knows, hpc] at hknows
      have hahead := ahead_pos hknows.1
      refine .lower hs' ?_
      simp only [State.rank, hpc]
      omega
    | answered measure frame enqueued hpc =>
      refine .lower hs' ?_
      simp only [State.rank, State.answered, hpc]
      omega
    | stopped hpc =>
      refine .lower hs' ?_
      cases hj : joins s.downlink.control with
      | true =>
        have hpos : 0 < s.downlink.remaining := by
          rw [Downlink.State.remaining, hterm]
          exact Nat.lt_add_right _ (remaining_pos hj)
        simp only [State.rank, hpc, hj, if_true]
        omega
      | false =>
        simp only [State.rank, hpc, hj, Bool.false_eq_true, if_false, drainBound]
        omega
    | still hcalls hcaller hknows' =>
      have hcontrol : (k = .control ∨ (∃ fd, k = .socket fd) ∨ ∃ created, k = .spawn created) →
          Nearer L uplinks s (.downlink k) { s with downlink := d } := fun hk =>
        .lower hs' (rank_of_control hs hend hterm hk h hterm' hknows')
      have hstep := h
      cases h with
      | call | start | stop => cases hk
      | enqueue t frame h =>
        rw [h] at hcaller
        simp [Downlink.State.record] at hcaller
      | check i | sleep i | drained i | pop i | serialize i | serializeThrows i | send i
      | count i =>
        exact nearer_of_loop (i := i) hs hs' hend hterm hstep rfl rfl
      | socket fd => exact hcontrol (Or.inr (Or.inl ⟨fd, rfl⟩))
      | socketFails fd => exact hcontrol (Or.inr (Or.inl ⟨fd, rfl⟩))
      | spawn | spawnFails | spawnJoinable => exact hcontrol (Or.inr (Or.inr ⟨_, rfl⟩))
      | _ => exact hcontrol (Or.inl rfl)

/-- Every step with the flag down. -/
theorem nearer_of_step {l : Label} (hs : Closing L uplinks s)
    (hnext : next L uplinks s l = some s') : Nearer L uplinks s l s' := by
  obtain ⟨hterm, hend, hstep⟩ := step_of_next hnext
  have hr' := hs.reachable.step hnext
  cases hstep with
  | signal => exact .wait ⟨hr', rfl⟩ rfl rfl nofun
  | downlink k d hk hd =>
    have hdown := (Downlink.step_of_next hd).2
    have hresumes := resumes_of_step (knows_reachable hs.reachable) hend hk
      (downlink_reachable hs.reachable) hdown
    refine nearer_of_downlink hs ⟨hr', ?_⟩ hend hterm hk hdown hresumes
    rw [State.resume_g_running]
    exact hs.down
  | injectThrows | concludeThrows | iterateThrows => exact .done (Or.inl rfl)
  | iterate measure es vars frame d h hup =>
    rw [hs.down] at hup
    cases hup
  | start d h hd =>
    obtain rfl := eq_of_start hd
    refine .lower ⟨hr', hs.down⟩ ?_
    simp [State.rank, State.ran, h, ahead, Downlink.State.toControl]
  | stop d h hdown hd =>
    obtain rfl := eq_of_stop hd
    refine .lower ⟨hr', hs.down⟩ ?_
    simp [State.rank, State.ran, h, ahead, joins, Downlink.State.toControl]
  | report d h hd =>
    refine .lower ⟨hr', hs.down⟩ ?_
    simp [State.rank, State.ran, h]
  | inject es vars h | conclude enqueued es vars h =>
    refine .lower ⟨hr', hs.down⟩ ?_
    simp [State.rank, State.ran, h]

/-! ## Somebody can go on -/

theorem enabled_of_some {l : Label} {t : Thread} (hl : l.thread = some t)
    (h : (next L uplinks s l).isSome = true) : (system cfg L uplinks).Enabled (Label.By t) s := by
  obtain ⟨s', hs'⟩ := Option.isSome_iff_exists.mp h
  exact ⟨l, s', hl, hs'⟩

section Enabled

variable (hterm : s.downlink.terminated = false) (hend : s.pc.ended = false)

include hterm hend

theorem enabled_of_downlink {k : Downlink.Label Unit} {t : Thread}
    (ht : (Label.downlink k).thread = some t) (hk : k.isCall = false)
    (h : (downlinkNext L s k).isSome = true) :
    (system cfg L uplinks).Enabled (Label.By t) s := by
  refine enabled_of_some ht ?_
  simp [next, downlinkStep, hterm, hend, hk, h]

/-- `main` can go on where it owes a step. -/
theorem enabled_main (hr : (system cfg L uplinks).Reachable s) (howes : s.owes = .main) :
    (system cfg L uplinks).Enabled (Label.By .main) s := by
  have hknows := knows_reachable hr
  unfold Knows at hknows
  cases hpc : s.pc with
  | built =>
    rw [hpc] at hknows
    exact enabled_of_some (l := .main) rfl
      (by simp [next, mainStep, call, downlinkNext, Downlink.next, hterm, hpc, Pc.ended, hknows.1])
  | starting =>
    rw [hpc] at hknows
    cases hc : s.downlink.control with
    | starting =>
      refine enabled_of_downlink (k := .control) hterm hend rfl rfl ?_
      cases hrun : s.downlink.dispatcher.m_running <;>
        simp [downlinkNext, Downlink.next, Downlink.controlStep, hterm, hc, hrun]
    | opening =>
      exact enabled_of_downlink (k := .socket 3) hterm hend rfl rfl
        (by simp [downlinkNext, Downlink.next, Downlink.socketStep, hterm, hc])
    | raising =>
      exact enabled_of_downlink (k := .control) hterm hend rfl rfl
        (by simp [downlinkNext, Downlink.next, Downlink.controlStep, hterm, hc])
    | spawning =>
      exact enabled_of_downlink (k := .spawn false) hterm hend rfl rfl
        (by simp [downlinkNext, Downlink.next, Downlink.spawnStep, hterm, hc])
    | _ =>
      rw [hc] at hknows
      cases hknows.1
  | injecting =>
    refine enabled_of_some (l := .main) rfl ?_
    obtain ⟨es, q, hret, -⟩ := inject_returns L uplinks s.vars
    rw [Prog.Returns] at hret
    simp [next, mainStep, hterm, hpc, Pc.ended, hret]
  | looping =>
    rw [hpc] at hknows
    cases hup : s.g_running with
    | false =>
      exact enabled_of_some (l := .main) rfl
        (by simp [next, mainStep, call, downlinkNext, Downlink.next, hterm, hpc, Pc.ended, hup,
          hknows.1])
    | true =>
      refine enabled_of_some (l := .iterate (Simulation.measure {})) rfl ?_
      obtain ⟨es, hret, -⟩ := prepare_returns s.vars (Simulation.measure {})
      rw [Prog.Returns] at hret
      simp [next, iterateStep, call, downlinkNext, Downlink.next, hterm, hpc, Pc.ended, hup, hret,
        hknows.2.2]
  | enqueueing measure =>
    rw [hpc] at hknows
    obtain ⟨frame, hframe⟩ := Option.ne_none_iff_exists'.mp hknows.2.2
    exact enabled_of_downlink (k := .enqueue ()) hterm hend rfl rfl
      (by simp [downlinkNext, Downlink.next, Downlink.enqueueStep, hterm, hframe])
  | concluding enqueued =>
    refine enabled_of_some (l := .main) rfl ?_
    rcases hrun : (conclude (registerCommandHandlers L {}) enqueued).run s.vars
      with ⟨es, v, _ | _⟩ <;>
      simp [next, mainStep, hterm, hpc, Pc.ended, hrun]
  | stopping =>
    rw [hpc] at hknows
    refine enabled_of_downlink (k := .control) hterm hend rfl rfl ?_
    cases hc : s.downlink.control with
    | stopping =>
      cases hrun : s.downlink.dispatcher.m_running <;>
        simp [downlinkNext, Downlink.next, Downlink.controlStep, hterm, hc, hrun]
    | clearing => simp [downlinkNext, Downlink.next, Downlink.controlStep, hterm, hc]
    | joining =>
      cases hthread : s.downlink.m_thread with
      | none => simp [downlinkNext, Downlink.next, Downlink.controlStep, hterm, hc, hthread]
      | some i =>
        have hexit : s.downlink.loops i = .exited := by
          by_contra halive
          simp [State.owes, hc, hthread, halive] at howes
        simp [downlinkNext, Downlink.next, Downlink.controlStep, hterm, hc, hthread, hexit]
    | closing =>
      by_cases hfd : s.downlink.dispatcher.m_sock_fd ≥ 0 <;>
        simp [downlinkNext, Downlink.next, Downlink.controlStep, hterm, hc, hfd]
    | _ =>
      rw [hc] at hknows
      cases hknows.1
  | reporting =>
    rw [hpc] at hknows
    exact enabled_of_some (l := .main) rfl
      (by simp [next, mainStep, call, downlinkNext, Downlink.next, hterm, hpc, Pc.ended, hknows.1])
  | destroying =>
    rw [hpc] at hknows
    exact enabled_of_downlink (k := .control) hterm hend rfl rfl
      (by simp [downlinkNext, Downlink.next, Downlink.controlStep, hterm, hknows.1, hknows.2.1])
  | exited | threw e =>
    rw [hpc] at hend
    cases hend

end Enabled

/-- The thread that owes a step can take one. -/
theorem enabled_owes (hr : (system cfg L uplinks).Reachable s) (hended : ¬Ended s) :
    (system cfg L uplinks).Enabled (Label.By s.owes) s := by
  rw [Ended, not_or, Bool.not_eq_true, Bool.not_eq_true] at hended
  obtain ⟨hend, hterm⟩ := hended
  cases howes : s.owes with
  | main => exact enabled_main hterm hend hr howes
  | loop i =>
    have halive : s.downlink.loops i ≠ .exited := by
      intro hexit
      unfold State.owes at howes
      split at howes
      · split at howes
        · cases howes
        · next hne =>
          obtain rfl := Thread.loop.inj howes
          exact hne hexit
      · cases howes
    obtain ⟨k, hk, hnext⟩ :=
      @Downlink.exists_loop_step Unit _ L (dispatcherConfig cfg) s.downlink hterm i halive
    refine enabled_of_downlink hterm hend ?_ ?_ hnext
    · cases k <;> first | exact congrArg (some ∘ Thread.loop) hk | exact absurd hk not_false
    · cases k <;> first | rfl | exact absurd hk not_false

/-! ## The results -/

/-- In every state of a process that has not ended, `main` or the loop it waits for can go on. -/
theorem goesOn (h : (system cfg L uplinks).Reachable s) :
    Ended s ∨ (system cfg L uplinks).Enabled (Label.By s.owes) s :=
  or_iff_not_imp_left.mpr (enabled_owes h)

/-- No run of the process that is fair to its threads goes on for ever once a signal has
arrived. -/
theorem ends (r : (system cfg L uplinks).InfiniteRun) (hfair : ∀ t, r.Fair (Label.By t))
    (hr : (system cfg L uplinks).Reachable (r.state 0)) (n : ℕ) : r.label n ≠ .signal := by
  intro hsignal
  have hreach : (system cfg L uplinks).Reachable (r.state (n + 1)) :=
    r.always (fun m hm => hm.step (r.step m)) hr (n + 1) (Nat.zero_le _)
  have hdown : (r.state (n + 1)).g_running = false := by
    have hstep := r.step n
    rw [hsignal] at hstep
    obtain ⟨-, -, hstep⟩ := step_of_next hstep
    generalize r.state (n + 1) = s' at hstep ⊢
    cases hstep
    rfl
  have hclosing : Closing L uplinks (r.state (n + 1)) := ⟨hreach, hdown⟩
  obtain ⟨m, -, hended⟩ := r.reaches hfair (fun m hI _ => nearer_of_step hI (r.step m))
    (fun m hI hgoal => enabled_owes hI.reachable hgoal) hclosing
  obtain ⟨hterm, hend, -⟩ := step_of_next (r.step m)
  rcases hended with h | h
  · rw [hend] at h
    cases h
  · rw [hterm] at h
    cases h

/-! ## There are such runs -/

/-- `main` is in its loop. -/
def Pc.inLoop : Pc → Bool
  | looping | enqueueing _ | concluding _ => true
  | _ => false

theorem not_ended_of_inLoop {pc : Pc} (h : pc.inLoop = true) : pc.ended = false := by
  cases pc <;> first | rfl | cases h

theorem ne_signal_of_by {t : Thread} {l : Label} (h : Label.By t l) : l ≠ .signal := by
  rintro rfl
  cases h

/-- The loop of `main` goes on, as long as no signal arrives and every frame serializes. -/
structure Looping (L : JsonLibrary) (uplinks : List Uplink) (s : State cfg) : Prop where
  reachable : (system cfg L uplinks).Reachable s
  inLoop : s.pc.inLoop = true
  up : s.g_running = true

theorem Looping.step {l : Label} (hL : L.Lawful) (hs : Looping L uplinks s) (hl : l ≠ .signal)
    (hnext : next L uplinks s l = some s') : Looping L uplinks s' := by
  obtain ⟨-, hend, hstep⟩ := step_of_next hnext
  have hr' := hs.reachable.step hnext
  have hloop := hs.inLoop
  cases hstep with
  | signal => exact absurd rfl hl
  | downlink k d hk hd =>
    have hresumes := resumes_of_step (knows_reachable hs.reachable) hend hk
      (downlink_reachable hs.reachable) (Downlink.step_of_next hd).2
    refine ⟨hr', ?_, by rw [State.resume_g_running]; exact hs.up⟩
    generalize ({ s with downlink := d } : State cfg).resume
      (d.log.drop s.downlink.log.length) = s' at hresumes
    cases hresumes with
    | still => exact hloop
    | answered => rfl
    | started hpc | failed hpc | stopped hpc | destroyed hpc =>
      rw [hpc] at hloop
      cases hloop
  | start _ h | inject _ _ h | injectThrows _ _ _ h | report _ h =>
    rw [h] at hloop
    cases hloop
  | stop d h hdown =>
    rw [hs.up] at hdown
    cases hdown
  | conclude | iterate => exact ⟨hr', rfl, hs.up⟩
  | concludeThrows enqueued es vars e h hrun =>
    have hserves := serves_reachable hL hs.reachable
    rw [Serves, h] at hserves
    obtain ⟨hok, -⟩ := conclude_dispatched (hserves.returns hL) enqueued hrun
    cases hok
  | iterateThrows measure es vars e h hup hrun => exact absurd hrun prepare_not_throws

/-- Where no loop ends the process, the loop of `main` can go on for ever. -/
theorem exists_run_of_looping (hL : L.Lawful) (hname : validUtf8 cfg.satellite_name = true)
    (hs : Looping L uplinks s) : ∃ r : (system cfg L uplinks).InfiniteRun, r.state 0 = s ∧
      ∀ t, r.Fair (Label.By t) := by
  have hkind : ∀ (t : Thread) (l : Label), l.By t → l ≠ .signal := fun _ _ => ne_signal_of_by
  have hkeep : ∀ s l s', l ≠ .signal → Looping L uplinks s → (system cfg L uplinks).step s l s' →
      Looping L uplinks s' := fun s l s' hl hs h => hs.step hL hl h
  have hlive : ∀ s, Looping L uplinks s → (system cfg L uplinks).Enabled (· ≠ .signal) s := by
    intro s hs
    have hended : ¬Ended s := by
      rintro (hend | hterm)
      · rw [not_ended_of_inLoop hs.inLoop] at hend
        cases hend
      · rw [(of_terminated hL hs.reachable hterm).1] at hname
        cases hname
    obtain ⟨l, s', hl, hnext⟩ := enabled_owes hs.reachable hended
    exact ⟨l, s', ne_signal_of_by hl, hnext⟩
  obtain ⟨r, hstart, -, hfair⟩ := Transitions.exists_fair hkind hkeep hlive hs
  exact ⟨r, hstart, hfair⟩

end Termination

/-- A process in its loop that no signal interrupts. -/
theorem ends_looping : ∃ r : (system {} TelemetrySerializer.nominalLibrary []).InfiniteRun,
    (r.state 0).pc = .looping ∧ ∀ n, r.label n ≠ .signal := by
  obtain ⟨s, hr, hpc, hup, -⟩ := looping_reachable {} TelemetrySerializer.nominalLibrary []
  obtain ⟨r, hstart, hfair⟩ := exists_run_of_looping TelemetrySerializer.nominalLibrary_lawful
    (by decide) (s := s) ⟨hr, by rw [hpc]; rfl, hup⟩
  exact ⟨r, by rw [hstart, hpc], ends r hfair (by rw [hstart]; exact hr)⟩

/-- After an iteration the loop of `main` can go on. -/
theorem goesOn_aloft :
    (system {} (.ofText [] .null) []).Enabled (Label.By aloft.owes) aloft := by
  refine (goesOn aloft_reachable).resolve_left ?_
  have hended : (aloft.pc.ended || aloft.downlink.terminated) = false := by decide +kernel
  rwa [Ended, ← Bool.or_eq_true, Bool.not_eq_true]

end Process

end Obcsw
