import Obcsw.Lifecycle

/-!
# Starts that throw

`start` acquires two things that can fail. `socket` comes first : when it fails, `start` has
changed nothing yet and throws. Then the flag is raised, and the thread is created last : when
that fails, the exception leaves the flag up and the descriptor open with no loop to use them,
and a later `start` finds the flag up and does nothing.

`AtomicStart` is the contract of a run : a `start` that throws leaves everything as it was, and
between calls the flag, the thread and the descriptor say the same. A run keeps it exactly if
no thread creation fails in it (`atomicStart_iff`).
-/

set_option linter.unusedSectionVars false

namespace Obcsw

namespace Downlink

open Exceptions (CppException)
open Transitions (exec run_cons_iff run_ofPartial_iff run_split_iff)

section Threads

variable {Tid : Type} [DecidableEq Tid] {L : JsonLibrary} {cfg : DispatcherConfig}

/-! ## The contract -/

/-- Nothing runs : the flag is down, no descriptor is held, no thread is attached. -/
structure Stopped (s : State Tid) : Prop where
  lowered : s.dispatcher.m_running = false
  descriptor : s.dispatcher.m_sock_fd = -1
  thread : s.m_thread = none

/-- The flag is up exactly if a thread is attached, and that exactly if `m_sock_fd` holds an
open descriptor. -/
structure Consistent (s : State Tid) : Prop where
  thread : s.dispatcher.m_running = true ↔ s.m_thread ≠ none
  descriptor : s.m_thread ≠ none ↔ Open s.log s.dispatcher.m_sock_fd

variable (L cfg) in
/-- `start` is called at `s`, the threads go on by `ls` to `t`, and there it throws. -/
structure StartThrows (s : State Tid) (ls : List (Label Tid)) (t : State Tid) (l : Label Tid)
    (s' : State Tid) : Prop where
  run : (system Tid L cfg).Run s (.start :: ls) t
  within : ∀ k ∈ ls, k.callsControl = false
  step : (system Tid L cfg).step t l s'
  throws : ∃ e, s'.log = t.log ++ [.startThrew e]

variable (L cfg) in
/-- The `start` from `s` to `s'` has left nothing behind. -/
structure Undone (s : State Tid) (ls : List (Label Tid)) (s' : State Tid) : Prop where
  before : Stopped s
  after : Stopped s'
  /-- Taken out of the run, it leaves the same run of the other threads. -/
  erased : (system Tid L cfg).Run s.forget (ls.filter fun k => !k.ofControl) s'.forget
  /-- A later `start` attempts again. -/
  retries : ∃ u, exec (next L cfg) s' [.start, .control] = some u ∧ u.control = .opening

variable (L cfg) in
/-- What the run promises about `start`. -/
structure AtomicStart (ls : List (Label Tid)) : Prop where
  undone : ∀ before during l after s t s', ls = before ++ .start :: (during ++ l :: after) →
    (system Tid L cfg).Run {} before s → StartThrows L cfg s during t l s' → Undone L cfg s during s'
  consistent : ∀ before after s, ls = before ++ after → (system Tid L cfg).Run {} before s →
    s.control = .idle → Consistent s

theorem reachable_of_run {s : State Tid} {ls : List (Label Tid)}
    (h : (system Tid L cfg).Run {} ls s) : (system Tid L cfg).Reachable s :=
  ⟨{}, ls, rfl, h⟩

/-! ## Runs without a failed thread creation -/

/-- The label is no failed thread creation, and `socket` returns a descriptor or -1. -/
def Label.Sound : Label Tid → Prop
  | .spawn created => created = true
  | .socket fd => -1 ≤ fd
  | _ => True

/-- What such a run keeps. -/
structure Manned (s : State Tid) : Prop where
  /-- Behind a raised flag there is a thread, or `start` is about to create it. -/
  thread : s.dispatcher.m_running = true → s.control = .spawning ∨ s.m_thread ≠ none
  descriptor : -1 ≤ s.dispatcher.m_sock_fd

theorem Manned.of_same {s s' : State Tid} (hs : Manned s)
    (hrun : s'.dispatcher.m_running = s.dispatcher.m_running)
    (hfd : s'.dispatcher.m_sock_fd = s.dispatcher.m_sock_fd) (hthread : s'.m_thread = s.m_thread)
    (hcontrol : s.control = .spawning → s'.control = .spawning) : Manned s' := by
  refine ⟨?_, by rw [hfd]; exact hs.descriptor⟩
  rw [hrun, hthread]
  exact fun hup => (hs.thread hup).imp_left hcontrol

theorem manned_of_lowered {s : State Tid} (hrun : s.dispatcher.m_running = false)
    (hfd : -1 ≤ s.dispatcher.m_sock_fd) : Manned s := by
  refine ⟨fun hup => ?_, hfd⟩
  rw [hrun] at hup
  cases hup

theorem Manned.step {s s' : State Tid} {l : Label Tid} (hs : Manned s) (hsockets : Sockets s)
    (h : Step L cfg s l s') (hl : l.Sound) : Manned s' := by
  have hknows := hsockets.knows
  cases h with
  | call t frame h => exact hs.of_same rfl rfl rfl id
  | enqueue t frame h =>
    exact hs.of_same (enqueue_m_running s.dispatcher frame) (enqueue_m_sock_fd s.dispatcher frame)
      rfl id
  | start h | startRunning h | startStopped h | stop h | stopStopped h | stopRunning h
  | joinNone h | closeNone h =>
    refine hs.of_same rfl rfl rfl ?_
    rw [h]
    rintro ⟨⟩
  | socketFails fd h | socket fd h =>
    rw [h] at hknows
    exact manned_of_lowered hknows.1 hl
  | raise h => exact ⟨fun _ => Or.inl rfl, hs.descriptor⟩
  | spawnFails h => cases hl
  | spawnJoinable i h hthread => exact hs.of_same rfl rfl rfl id
  | spawn h hthread => exact ⟨fun _ => Or.inr (Option.some_ne_none _), hs.descriptor⟩
  | clear h => exact manned_of_lowered rfl hs.descriptor
  | join i h =>
    rw [h] at hknows
    exact manned_of_lowered hknows.1 hs.descriptor
  | close h hfd =>
    rw [h] at hknows
    exact manned_of_lowered hknows.1 (le_refl _)
  | count i frame sent h =>
    exact hs.of_same (by cases sent <;> rfl) (by cases sent <;> rfl) rfl id
  | check | sleep | drained | pop | serialize | serializeThrows | send =>
    exact hs.of_same rfl rfl rfl id

theorem manned_of_run {s : State Tid} {ls : List (Label Tid)}
    (h : (system Tid L cfg).Run {} ls s) (hls : ∀ l ∈ ls, l.Sound) : Manned s := by
  have hkeeps : (system Tid L cfg).Reachable s ∧ Manned s := by
    refine h.induct (I := fun s => (system Tid L cfg).Reachable s ∧ Manned s) ?_ hls
      ⟨reachable_of_run (.nil _), manned_of_lowered rfl (le_refl _)⟩
    rintro s l s' hl ⟨hr, hs⟩ hstep
    exact ⟨hr.step hstep, hs.step (sockets_reachable hr) (step_of_next hstep).2 hl⟩
  exact hkeeps.2

/-- `m_sock_fd` holds an open descriptor exactly if it is not negative. -/
theorem open_iff_nonneg {s : State Tid} (h : (system Tid L cfg).Reachable s) :
    Open s.log s.dispatcher.m_sock_fd ↔ 0 ≤ s.dispatcher.m_sock_fd := by
  rw [open_iff (protocol_run h)]
  unfold State.descriptor
  split
  · next hfd => exact ⟨fun _ => hfd, fun _ => rfl⟩
  · next hfd => exact ⟨by rintro ⟨⟩, fun hge => absurd hge hfd⟩

theorem Manned.consistent {s : State Tid} (hs : Manned s) (hr : (system Tid L cfg).Reachable s)
    (hidle : s.control = .idle) : Consistent s := by
  have hthread : s.dispatcher.m_running = true ↔ s.m_thread ≠ none := by
    constructor
    · intro hup
      exact (hs.thread hup).resolve_left (by rw [hidle]; rintro ⟨⟩)
    · intro hne
      by_contra hdown
      refine hne ((live_reachable hr).detached (Bool.eq_false_iff.mpr hdown) ?_)
      rw [hidle]
      rintro ⟨⟩
  have hknows := (sockets_reachable hr).knows
  rw [hidle] at hknows
  refine ⟨hthread, ?_⟩
  rw [open_iff_nonneg hr, ← hthread]
  exact hknows

/-! ## A start that throws -/

/-- In `start`, with nothing changed yet. -/
def Entering (s : State Tid) : Prop :=
  s.control = .starting ∨ s.control = .opening

/-- Other threads do not touch what `start` acquires. -/
structure SameResources (s s' : State Tid) : Prop where
  running : s'.dispatcher.m_running = s.dispatcher.m_running
  descriptor : s'.dispatcher.m_sock_fd = s.dispatcher.m_sock_fd
  thread : s'.m_thread = s.m_thread
  control : s'.control = s.control

theorem sameResources_of_step {s s' : State Tid} {l : Label Tid} (h : Step L cfg s l s')
    (hl : l.ofControl = false) : SameResources s s' := by
  cases h with
  | enqueue t frame h =>
    exact ⟨enqueue_m_running s.dispatcher frame, enqueue_m_sock_fd s.dispatcher frame, rfl, rfl⟩
  | count i frame sent h => exact ⟨by cases sent <;> rfl, by cases sent <;> rfl, rfl, rfl⟩
  | call | check | sleep | drained | pop | serialize | serializeThrows | send =>
    exact ⟨rfl, rfl, rfl, rfl⟩
  | _ => cases hl

/-- `start` comes to the call of `socket` only from its beginning, and with nothing changed. -/
theorem entering_of_step {s s' : State Tid} {l : Label Tid} (h : Step L cfg s l s')
    (hl : l.callsControl = false) (hs' : Entering s') :
    Entering s ∧ (l.ofControl = true → s'.forget = s.forget) := by
  cases hcontrol : l.ofControl with
  | false =>
    have hsame := (sameResources_of_step h hcontrol).control
    unfold Entering at hs' ⊢
    rw [hsame] at hs'
    exact ⟨hs', by rintro ⟨⟩⟩
  | true =>
    cases h with
    | start | stop => cases hl
    | startStopped h hrun => exact ⟨Or.inl h, fun _ => rfl⟩
    | spawnJoinable i h => rcases hs' with h' | h' <;> cases h.symm.trans h'
    | startRunning | socketFails | socket | raise | spawnFails | spawn | stopStopped | stopRunning
    | clear | joinNone | join | close | closeNone =>
      rcases hs' with h' | h' <;> cases h'
    | call | enqueue | check | sleep | drained | pop | serialize | serializeThrows | send | count =>
      cases hcontrol

theorem entering_of_run {s s' : State Tid} {ls : List (Label Tid)}
    (h : (system Tid L cfg).Run s ls s') (hls : ∀ l ∈ ls, l.callsControl = false)
    (hs' : Entering s') : Entering s := by
  by_contra hs
  exact h.induct (I := fun s => ¬Entering s) (P := fun l => l.callsControl = false)
    (fun _ _ _ hl hv hv' hw => hv (entering_of_step (step_of_next hv').2 hl hw).1) hls hs hs'

/-- Up to the call of `socket`, the steps of `start` can be taken out. -/
theorem erased_of_entering {s t : State Tid} {ls : List (Label Tid)}
    (h : (system Tid L cfg).Run s (.start :: ls) t) (hls : ∀ l ∈ ls, l.callsControl = false)
    (ht : Entering t) :
    (system Tid L cfg).Run s.forget (ls.filter fun k => !k.ofControl) t.forget := by
  obtain ⟨s₁, hstep, hrun⟩ := run_cons_iff.mp h
  have hforget : s₁.forget = s.forget := by
    cases (step_of_next hstep).2
    rfl
  rw [← hforget]
  refine hrun.erase (fun u k u' hk hu => step_forget (by simpa using hk) hu) ?_
  rintro js k ks u u' rfl - hu hks hk
  have hu' : Entering u' :=
    entering_of_run hks (fun l hl => hls l (by simp [hl])) ht
  exact (entering_of_step (step_of_next hu).2 (hls k (by simp)) hu').2 (by simpa using hk)

theorem sameResources_of_run {s s' : State Tid} {ls : List (Label Tid)}
    (h : (system Tid L cfg).Run s ls s') (hls : ∀ l ∈ ls, l.ofControl = false) :
    SameResources s s' := by
  refine h.induct (I := SameResources s) ?_ hls ⟨rfl, rfl, rfl, rfl⟩
  intro u l u' hl hu hstep
  have hsame := sameResources_of_step (step_of_next hstep).2 hl
  exact ⟨hsame.running.trans hu.running, hsame.descriptor.trans hu.descriptor,
    hsame.thread.trans hu.thread, hsame.control.trans hu.control⟩

/-- `start` throws when `socket` fails, or when the thread is not created. -/
theorem throw_cases {t s' : State Tid} {l : Label Tid} {e : CppException}
    (h : Step L cfg t l s') (hthrow : s'.log = t.log ++ [.startThrew e]) :
    (∃ fd, l = .socket fd ∧ t.control = .opening ∧ fd < 0 ∧
      s' = ({ t with dispatcher := { t.dispatcher with m_sock_fd := fd } }.toControl
        .idle).record [.startThrew socketFailed]) ∨ l = .spawn false := by
  cases h with
  | socketFails fd h hfd => exact Or.inl ⟨fd, rfl, h, hfd, rfl⟩
  | spawnFails h => exact Or.inr rfl
  | enqueue t frame h =>
    simp only [State.record, List.append_cancel_left_eq, List.singleton_inj] at hthrow
    split at hthrow <;> cases hthrow
  | _ => simp [State.record, State.toControl, State.toLoop] at hthrow

/-- When `start` calls `socket`, nothing runs. -/
theorem Manned.stopped {t : State Tid} (ht : Manned t) (hr : (system Tid L cfg).Reachable t)
    (hopening : t.control = .opening) : Stopped t := by
  have hknows := (sockets_reachable hr).knows
  rw [hopening] at hknows
  refine ⟨hknows.1, ?_, (live_reachable hr).detached hknows.1 (by rw [hopening]; rintro ⟨⟩)⟩
  have hge := ht.descriptor
  have hlt := hknows.2
  omega

theorem Stopped.of_sameResources {s t : State Tid} (ht : Stopped t) (h : SameResources s t) :
    Stopped s :=
  ⟨h.running.symm.trans ht.lowered, h.descriptor.symm.trans ht.descriptor,
    h.thread.symm.trans ht.thread⟩

/-- Unless the thread is not created, a `start` that throws leaves nothing behind. -/
theorem StartThrows.undone {s t s' : State Tid} {ls : List (Label Tid)} {l : Label Tid}
    (h : StartThrows L cfg s ls t l s') (hr : (system Tid L cfg).Reachable s) (ht : Manned t)
    (hl : l.Sound) : Undone L cfg s ls s' := by
  obtain ⟨e, hthrow⟩ := h.throws
  obtain ⟨hterm, hstep⟩ := step_of_next h.step
  rcases throw_cases hstep hthrow with ⟨fd, rfl, hopening, hfd, rfl⟩ | rfl
  · have hstopped : Stopped t := ht.stopped (hr.run h.run) hopening
    have hminus : fd = -1 := by
      have hge : -1 ≤ fd := hl
      omega
    have herased := erased_of_entering h.run h.within (Or.inr hopening)
    have hsame : SameResources s.forget t.forget :=
      sameResources_of_run herased fun k hk => by simpa using (List.mem_filter.mp hk).2
    have hforgotten : Stopped t.forget :=
      ⟨hstopped.lowered, hstopped.descriptor, hstopped.thread⟩
    have hbefore : Stopped s.forget := hforgotten.of_sameResources hsame
    have hforget : State.forget (({ t with
        dispatcher := { t.dispatcher with m_sock_fd := fd } }.toControl .idle).record
          [.startThrew socketFailed]) = t.forget := by
      rw [hminus, ← hstopped.descriptor]
      exact forget_of_return t .idle rfl
    refine ⟨⟨hbefore.lowered, hbefore.descriptor, hbefore.thread⟩,
      ⟨hstopped.lowered, hminus, hstopped.thread⟩, ?_, ?_⟩
    · rw [hforget]
      exact herased
    · refine ⟨({ t with dispatcher := { t.dispatcher with m_sock_fd := fd } }.record
        [.startThrew socketFailed]).toControl .opening, ?_, rfl⟩
      simp [exec, next, controlStep, State.toControl, State.record, hterm, hstopped.lowered]
  · cases hl

/-! ## When a run keeps the contract -/

/-- A failed thread creation leaves the flag up, the descriptor open and no thread. -/
theorem not_consistent_of_spawnFails {t t' : State Tid} (hr : (system Tid L cfg).Reachable t)
    (h : (system Tid L cfg).step t (.spawn false) t') :
    t'.control = .idle ∧ ¬Consistent t' := by
  have hs := sockets_reachable hr
  have hknows := hs.knows
  cases (step_of_next h).2 with
  | spawnFails hspawning =>
    rw [hspawning] at hknows
    exact ⟨rfl, fun hc => hc.thread.mp hknows.1 (hs.spawning hspawning)⟩

/-- A run keeps the contract of `start` exactly if no thread creation fails in it. -/
theorem atomicStart_iff {s : State Tid} {ls : List (Label Tid)}
    (hrun : (system Tid L cfg).Run {} ls s) (hsocket : ∀ fd, .socket fd ∈ ls → -1 ≤ fd) :
    AtomicStart L cfg ls ↔ .spawn false ∉ ls := by
  constructor
  · intro h hmem
    obtain ⟨before, after, rfl⟩ := List.append_of_mem hmem
    obtain ⟨t, t', hbefore, hstep, -⟩ := run_split_iff.mp hrun
    obtain ⟨hidle, hnot⟩ := not_consistent_of_spawnFails (reachable_of_run hbefore) hstep
    refine hnot (h.consistent (before ++ [.spawn false]) after t' ?_ ?_ hidle)
    · rw [List.append_assoc, List.singleton_append]
    · exact hbefore.append (.single hstep)
  · intro hmem
    have hsound : ∀ l ∈ ls, l.Sound := by
      intro l hl
      cases l with
      | socket fd => exact hsocket fd hl
      | spawn created =>
        cases created with
        | true => rfl
        | false => exact absurd hl hmem
      | _ => trivial
    constructor
    · rintro before during l after s t s' rfl hbefore hthrows
      have ht : Manned t := by
        refine manned_of_run (hbefore.append hthrows.run) fun k hk => hsound k ?_
        simp only [List.mem_append, List.mem_cons] at hk ⊢
        tauto
      exact hthrows.undone (reachable_of_run hbefore) ht (hsound l (by simp))
    · rintro before after s rfl hbefore hidle
      have hs : Manned s :=
        manned_of_run hbefore fun k hk => hsound k (List.mem_append_left _ hk)
      exact hs.consistent (reachable_of_run hbefore) hidle

end Threads

/-! ## A retry that works and one that does not -/

/-- `socket` fails in the first `start`; the second one starts the loop, and `stop` stops it. -/
def retry : List (Label Unit) :=
  [.start, .control, .socket (-1), .start, .control, .socket 3, .control, .spawn true, .loop 0,
    .stop, .control, .control, .loop 0, .loop 0, .loop 0, .control, .control]

def retried : State Unit :=
  (exec (next frameLibrary {}) {} retry).get (by decide +kernel)

theorem atomicStart_retry : AtomicStart frameLibrary {} retry := by
  refine (atomicStart_iff (s := retried) (run_ofPartial_iff.mpr (Option.some_get _).symm) ?_).mpr ?_
  · intro fd hfd
    simp [retry] at hfd
    omega
  · simp [retry]

/-- The thread is not created. -/
def spawnFailure : List (Label Unit) :=
  [.start, .control, .socket 3, .control, .spawn false]

def unmanned : State Unit :=
  (exec (next frameLibrary {}) {} spawnFailure).get (by decide +kernel)

/-- After the failure the flag is up with no thread, and a later `start` returns without one. -/
theorem not_atomicStart_spawnFailure : ¬AtomicStart frameLibrary {} spawnFailure ∧
    unmanned.dispatcher.m_running = true ∧ unmanned.dispatcher.m_sock_fd = 3 ∧
    ∃ u, exec (next frameLibrary {}) unmanned [.start, .control] = some u ∧
      u.control = .idle ∧ u.m_thread = none := by
  have hrunning : unmanned.dispatcher.m_running = true := by decide +kernel
  have hthread : unmanned.m_thread = none := by decide +kernel
  have hidle : unmanned.control = .idle := by decide +kernel
  refine ⟨fun h => ?_, hrunning, by decide +kernel, ?_⟩
  · have hrun : (system Unit frameLibrary {}).Run {} spawnFailure unmanned :=
      run_ofPartial_iff.mpr (Option.some_get _).symm
    have hconsistent := h.consistent spawnFailure [] unmanned (List.append_nil _).symm hrun hidle
    exact hconsistent.thread.mp hrunning hthread
  · exact ⟨(exec (next frameLibrary {}) unmanned [.start, .control]).get (by decide +kernel),
      (Option.some_get _).symm, by decide +kernel, by decide +kernel⟩

end Downlink

end Obcsw
