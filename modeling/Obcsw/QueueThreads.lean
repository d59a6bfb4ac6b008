import Obcsw.BoundedFifo
import Obcsw.CommandQueue

/-!
# Threads on a CommandQueue

Any number of threads call the methods of one `CommandQueue`. A method locks the mutex,
runs its body and unlocks it; `push` calls `notify_one` in between. `popWait` checks the
predicate with the mutex held and, while the queue is empty, parks in the condition
variable, which releases the mutex. A parked thread leaves the condition variable when it is
notified, when its wait times out, or spuriously, then takes the mutex again and checks the
predicate again. A wait that reported a timeout returns what that check says; another parks
again. A wait ended by a notification may report a timeout as well, when the notification
comes at the deadline.

`next` is one atomic step of one thread, chosen by the scheduler. Two ghost fields record
the calls : `log` in the order of their bodies, `returned` in the order they unlock.

* `explains` : one step logs nothing and leaves the queue alone, or logs one call, with the
  answer the contents call for.
* `linearises` : in every reachable state the log is a history of the bounded FIFO queue.
* `wakeups` : a parked thread is covered by the threads on their way to the predicate.
-/

set_option linter.unusedSectionVars false

open BoundedFifo (Applies fifo accepted taken)
open Transitions (holding holding_update holding_eq_zero_iff)

namespace Obcsw

/-! ## The threads -/

/-- A method call. -/
inductive Call
  | push (cmd : Command)
  | tryPop
  | popWait
  | empty
  | size

/-- What a call returns. -/
abbrev Call.Answer : Call → Type
  | push _ => Bool
  | tryPop => Option Command
  | popWait => Option Command
  | empty => Bool
  | size => UInt32

namespace QueueThreads

/-- A call with its answer, and the thread that made it. -/
structure Entry (Tid : Type) where
  thread : Tid
  call : Call
  answer : call.Answer

/-- Where a thread stands. -/
inductive Pc
  /-- Outside every method. -/
  | idle
  /-- Called, about to lock the mutex. -/
  | entering (c : Call)
  /-- Holds the mutex, about to run the body. -/
  | locked (c : Call)
  /-- `push` has inserted its command and is about to notify; holds the mutex. -/
  | notifying (cmd : Command)
  /-- Waits in the condition variable, without the mutex. -/
  | parked
  /-- Has left the condition variable, about to lock the mutex again. -/
  | released (timedOut : Bool)
  /-- Holds the mutex again, about to check the predicate. -/
  | rechecking (timedOut : Bool)
  /-- Has its answer, about to unlock the mutex and return. -/
  | leaving (c : Call) (a : c.Answer)

namespace Pc

/-- Whether a thread there holds the mutex. -/
def holdsMutex : Pc → Bool
  | locked _ | notifying _ | rechecking _ | leaving _ _ => true
  | _ => false

def isParked : Pc → Bool
  | parked => true
  | _ => false

theorem isParked_iff {c : Pc} : c.isParked = true ↔ c = parked := by
  cases c <;> simp [isParked]

def isReleased : Pc → Bool
  | released _ => true
  | _ => false

/-- On its way from the condition variable to the predicate. -/
def isReturning : Pc → Bool
  | released _ | rechecking _ => true
  | _ => false

def isNotifying : Pc → Bool
  | notifying _ => true
  | _ => false

/-- The logged call of a thread there that has not returned from it. -/
def entry {Tid : Type} (t : Tid) : Pc → List (Entry Tid)
  | notifying cmd => [⟨t, .push cmd, true⟩]
  | leaving c a => [⟨t, c, a⟩]
  | _ => []

end Pc

/-- What the scheduler lets a thread do. -/
inductive Move (Tid : Type)
  /-- Call a method. -/
  | call (c : Call)
  /-- Lock the mutex. -/
  | lock
  /-- Run the body, or check the predicate. -/
  | body
  /-- `notify_one` : release `target`, whose wait then reports `timedOut`. -/
  | notify (target : Option Tid) (timedOut : Bool)
  /-- Unlock the mutex and return. -/
  | unlock
  /-- Leave the condition variable, by a timeout or spuriously. -/
  | wake (timedOut : Bool)

section Threads

variable {Tid : Type} [Fintype Tid] [DecidableEq Tid] {m_max_depth : UInt32}

variable (Tid m_max_depth) in
/-- The queue, the mutex and the threads. -/
structure State where
  queue : CommandQueue m_max_depth
  mutex : Option Tid
  pc : Tid → Pc
  log : List (Entry Tid)
  returned : List (Entry Tid)

namespace State

variable (Tid m_max_depth) in
/-- An empty queue, and no thread in a method. -/
def init : State Tid m_max_depth :=
  ⟨.init m_max_depth, none, fun _ => .idle, [], []⟩

variable (s : State Tid m_max_depth) (t : Tid)

/-- Move thread `t` to `c`. -/
def move (c : Pc) : State Tid m_max_depth :=
  { s with pc := Function.update s.pc t c }

section Move

variable (c : Pc)

@[simp] theorem move_queue : (s.move t c).queue = s.queue :=
  rfl

@[simp] theorem move_mutex : (s.move t c).mutex = s.mutex :=
  rfl

@[simp] theorem move_log : (s.move t c).log = s.log :=
  rfl

@[simp] theorem move_returned : (s.move t c).returned = s.returned :=
  rfl

@[simp] theorem move_pc_self : (s.move t c).pc t = c :=
  Function.update_self ..

theorem move_pc_of_ne {u : Tid} (h : u ≠ t) : (s.move t c).pc u = s.pc u :=
  Function.update_of_ne h ..

end Move

/-- The call of `t` gets its answer, and the queue becomes `q`. -/
def answer (c : Call) (a : c.Answer) (q : CommandQueue m_max_depth) : State Tid m_max_depth :=
  { s with queue := q, log := s.log ++ [Entry.mk t c a] }

/-- Where a call goes once it has its answer : a `push` that inserted notifies first. -/
def after : (c : Call) → c.Answer → Pc
  | .push cmd, true => .notifying cmd
  | c, a => .leaving c a

/-- The thread waits in the condition variable and gives up the mutex. -/
def park : State Tid m_max_depth :=
  { s with mutex := none }.move t .parked

end State

/-- The body of a method; none when the predicate of `popWait` is false. -/
def body (q : CommandQueue m_max_depth) : (c : Call) → Option (c.Answer × CommandQueue m_max_depth)
  | .push cmd => some (q.push cmd)
  | .tryPop => some q.tryPop
  | .popWait => if q.empty then none else some q.tryPop
  | .empty => some (q.empty, q)
  | .size => some (q.size, q)

/-- `notify_one` releases a parked thread if there is one. -/
def canNotify (s : State Tid m_max_depth) : Option Tid → Bool
  | some u => (s.pc u).isParked
  | none => decide (∀ u, (s.pc u).isParked = false)

/-- Release the thread `notify_one` chose. -/
def release (s : State Tid m_max_depth) (target : Option Tid) (timedOut : Bool) :
    State Tid m_max_depth :=
  match target with
  | some u => s.move u (.released timedOut)
  | none => s

theorem release_pc_of_ne {s : State Tid m_max_depth} {target : Option Tid} {timedOut : Bool}
    {u : Tid} (h : target ≠ some u) : (release s target timedOut).pc u = s.pc u := by
  cases target with
  | none => rfl
  | some v => exact State.move_pc_of_ne s v _ fun huv => h (congrArg some huv.symm)

/-- A notifying thread does not notify itself. -/
theorem ne_of_canNotify {s : State Tid m_max_depth} {target : Option Tid} {t : Tid}
    {cmd : Command} (hpc : s.pc t = .notifying cmd) (h : canNotify s target = true) :
    target ≠ some t := by
  rintro rfl
  rw [canNotify, hpc] at h
  cases h

/-- One step of one thread; none when the thread cannot do that. -/
def next (s : State Tid m_max_depth) (t : Tid) (m : Move Tid) : Option (State Tid m_max_depth) :=
  match m, s.pc t with
  | .call c, .idle => some (s.move t (.entering c))
  | .lock, .entering c =>
    if s.mutex.isNone then some ({ s with mutex := some t }.move t (.locked c)) else none
  | .lock, .released timedOut =>
    if s.mutex.isNone then some ({ s with mutex := some t }.move t (.rechecking timedOut))
    else none
  | .body, .locked c =>
    match body s.queue c with
    | some (a, q) => some ((s.answer t c a q).move t (State.after c a))
    | none => some (s.park t)
  | .body, .rechecking timedOut =>
    match body s.queue .popWait with
    | some (a, q) => some ((s.answer t .popWait a q).move t (State.after .popWait a))
    | none =>
      if timedOut then
        some ((s.answer t .popWait none s.queue).move t (State.after .popWait none))
      else some (s.park t)
  | .notify target timedOut, .notifying cmd =>
    if canNotify s target then
      some ((release s target timedOut).move t (.leaving (.push cmd) true))
    else none
  | .unlock, .leaving c a =>
    some ({ s with mutex := none, returned := s.returned ++ [Entry.mk t c a] }.move t .idle)
  | .wake timedOut, .parked => some (s.move t (.released timedOut))
  | _, _ => none

variable (Tid m_max_depth) in
/-- The threads on a new queue. -/
def system : Transitions (State Tid m_max_depth) (Tid × Move Tid) :=
  .ofPartial (State.init Tid m_max_depth) fun s i => next s i.1 i.2

/-! ## What one step does -/

/-- What the answer of a call says about the queue before and after it. -/
def Explains (q : CommandQueue m_max_depth) :
    (c : Call) → c.Answer → CommandQueue m_max_depth → Prop
  | .push cmd, ok, q' => (ok = false ↔ q.m_queue.length = m_max_depth.toNat) ∧
      (ok = false → q' = q) ∧ (ok = true → q'.m_queue = q.m_queue ++ [cmd])
  | .tryPop, item, q' => (item = none ↔ q.m_queue = []) ∧ q.m_queue = item.toList ++ q'.m_queue
  | .popWait, item, q' => (item = none ↔ q.m_queue = []) ∧ q.m_queue = item.toList ++ q'.m_queue
  | .empty, b, q' => (b = true ↔ q.m_queue = []) ∧ q' = q
  | .size, n, q' => n.toNat = q.m_queue.length ∧ q' = q

theorem explains_push (q : CommandQueue m_max_depth) (cmd : Command) :
    Explains q (.push cmd) (q.push cmd).1 (q.push cmd).2 := by
  rcases Nat.lt_or_ge q.m_queue.length m_max_depth.toNat with h | h
  · obtain ⟨hok, hq⟩ := q.push_of_lt cmd h
    refine ⟨?_, fun hno => ?_, fun _ => hq⟩
    · rw [hok]
      exact iff_of_false Bool.noConfusion (Nat.ne_of_lt h)
    · rw [hok] at hno
      cases hno
  · have hfull := Nat.le_antisymm q.bound h
    rw [q.push_of_full cmd hfull]
    exact ⟨iff_of_true rfl hfull, fun _ => rfl, Bool.noConfusion⟩

theorem explains_tryPop (q : CommandQueue m_max_depth) :
    Explains q .tryPop q.tryPop.1 q.tryPop.2 := by
  cases h : q.m_queue with
  | nil =>
    rw [q.tryPop_of_nil h]
    exact ⟨iff_of_true rfl h, by rw [h]; rfl⟩
  | cons cmd rest =>
    obtain ⟨hitem, hrest⟩ := q.tryPop_of_cons h
    refine ⟨?_, ?_⟩
    · rw [hitem, h]
      exact iff_of_false (Option.some_ne_none cmd) (List.cons_ne_nil cmd rest)
    · rw [hitem, hrest, h]
      rfl

/-- The body answers what the contents call for. -/
theorem explains_body {q q' : CommandQueue m_max_depth} {c : Call} {a : c.Answer}
    (h : body q c = some (a, q')) : Explains q c a q' := by
  cases c with
  | push cmd =>
    obtain ⟨rfl, rfl⟩ := Prod.mk.inj (Option.some.inj h)
    exact explains_push q cmd
  | tryPop =>
    obtain ⟨rfl, rfl⟩ := Prod.mk.inj (Option.some.inj h)
    exact explains_tryPop q
  | popWait =>
    rw [body] at h
    split at h
    · cases h
    · obtain ⟨rfl, rfl⟩ := Prod.mk.inj (Option.some.inj h)
      exact explains_tryPop q
  | empty =>
    obtain ⟨rfl, rfl⟩ := Prod.mk.inj (Option.some.inj h)
    exact ⟨List.isEmpty_iff, rfl⟩
  | size =>
    obtain ⟨rfl, rfl⟩ := Prod.mk.inj (Option.some.inj h)
    exact ⟨q.size_toNat, rfl⟩

/-- Only the predicate of `popWait` holds a body back, and only when the queue is empty. -/
theorem body_eq_none {q : CommandQueue m_max_depth} {c : Call} (h : body q c = none) :
    c = .popWait ∧ q.m_queue = [] := by
  cases c with
  | popWait =>
    rw [body] at h
    split at h
    · next hq => exact ⟨rfl, List.isEmpty_iff.mp hq⟩
    · cases h
  | _ => cases h

theorem explains_timeout {q : CommandQueue m_max_depth} (h : q.m_queue = []) :
    Explains q .popWait none q :=
  ⟨iff_of_true rfl h, rfl⟩

/-- What a step of thread `t` can do. -/
inductive Step (s : State Tid m_max_depth) (t : Tid) : State Tid m_max_depth → Prop
  | call (c : Call) (hpc : s.pc t = .idle) : Step s t (s.move t (.entering c))
  | lock (c : Call) (hpc : s.pc t = .entering c) (hfree : s.mutex = none) :
      Step s t ({ s with mutex := some t }.move t (.locked c))
  | relock (timedOut : Bool) (hpc : s.pc t = .released timedOut) (hfree : s.mutex = none) :
      Step s t ({ s with mutex := some t }.move t (.rechecking timedOut))
  | answer (c : Call) (a : c.Answer) (q : CommandQueue m_max_depth) (hpc : s.pc t = .locked c)
      (hq : Explains s.queue c a q) : Step s t ((s.answer t c a q).move t (State.after c a))
  | reanswer (timedOut : Bool) (item : Option Command) (q : CommandQueue m_max_depth)
      (hpc : s.pc t = .rechecking timedOut) (hq : Explains s.queue .popWait item q) :
      Step s t ((s.answer t .popWait item q).move t (.leaving .popWait item))
  | park (c : Pc) (hpc : s.pc t = c) (hholds : c.holdsMutex = true)
      (hflight : c.entry t = []) (hempty : s.queue.m_queue = []) : Step s t (s.park t)
  | notify (cmd : Command) (target : Option Tid) (timedOut : Bool)
      (hpc : s.pc t = .notifying cmd) (htarget : canNotify s target = true) :
      Step s t ((release s target timedOut).move t (.leaving (.push cmd) true))
  | unlock (c : Call) (a : c.Answer) (hpc : s.pc t = .leaving c a) :
      Step s t ({ s with mutex := none, returned := s.returned ++ [Entry.mk t c a] }.move t .idle)
  | wake (timedOut : Bool) (hpc : s.pc t = .parked) : Step s t (s.move t (.released timedOut))

theorem step_of_next {s s' : State Tid m_max_depth} {t : Tid} {m : Move Tid}
    (h : next s t m = some s') : Step s t s' := by
  unfold next at h
  split at h
  · next c hpc =>
    obtain rfl := Option.some.inj h
    exact .call c hpc
  · next c hpc =>
    split at h
    · next hfree =>
      obtain rfl := Option.some.inj h
      exact .lock c hpc (Option.isNone_iff_eq_none.mp hfree)
    · cases h
  · next timedOut hpc =>
    split at h
    · next hfree =>
      obtain rfl := Option.some.inj h
      exact .relock timedOut hpc (Option.isNone_iff_eq_none.mp hfree)
    · cases h
  · next c hpc =>
    split at h
    · next a q hb =>
      obtain rfl := Option.some.inj h
      exact .answer c a q hpc (explains_body hb)
    · next hb =>
      obtain rfl := Option.some.inj h
      exact .park _ hpc rfl rfl (body_eq_none hb).2
  · next timedOut hpc =>
    split at h
    · next a q hb =>
      obtain rfl := Option.some.inj h
      exact .reanswer timedOut a q hpc (explains_body hb)
    · next hb =>
      split at h
      · obtain rfl := Option.some.inj h
        exact .reanswer timedOut none s.queue hpc (explains_timeout (body_eq_none hb).2)
      · obtain rfl := Option.some.inj h
        exact .park _ hpc rfl rfl (body_eq_none hb).2
  · next target timedOut cmd hpc =>
    split at h
    · next htarget =>
      obtain rfl := Option.some.inj h
      exact .notify cmd target timedOut hpc htarget
    · cases h
  · next c a hpc =>
    obtain rfl := Option.some.inj h
    exact .unlock c a hpc
  · next timedOut hpc =>
    obtain rfl := Option.some.inj h
    exact .wake timedOut hpc
  · cases h

/-! ## The mutex and the calls in flight -/

/-- The logged call of the owner of the mutex. -/
def State.inFlight (s : State Tid m_max_depth) : List (Entry Tid) :=
  match s.mutex with
  | some t => (s.pc t).entry t
  | none => []

theorem Pc.entry_of_not_holdsMutex {c : Pc} (h : c.holdsMutex = false) (t : Tid) :
    c.entry t = [] := by
  cases c <;> first | rfl | cases h

theorem State.inFlight_of_owner {s : State Tid m_max_depth} {t : Tid}
    (h : s.mutex = if (s.pc t).holdsMutex then some t else none) :
    s.inFlight = (s.pc t).entry t := by
  unfold State.inFlight
  rw [h]
  cases hc : (s.pc t).holdsMutex with
  | true => rfl
  | false => rw [Pc.entry_of_not_holdsMutex hc]; rfl

/-- The owner of the mutex is the thread that stands where it is held, and every logged call
has returned but the owner's. -/
structure Inv (s : State Tid m_max_depth) : Prop where
  owner : ∀ u, (s.pc u).holdsMutex = true ↔ s.mutex = some u
  log : s.log = s.returned ++ s.inFlight

theorem inv_init : Inv (State.init Tid m_max_depth) :=
  ⟨fun _ => iff_of_false Bool.noConfusion (fun h => nomatch h), rfl⟩

/-- A thread moves between points where it does not hold the mutex. -/
theorem Inv.move_free {s : State Tid m_max_depth} (hs : Inv s) {t : Tid} {c : Pc}
    (hpc : (s.pc t).holdsMutex = false) (hc : c.holdsMutex = false) : Inv (s.move t c) := by
  constructor
  · intro u
    rcases eq_or_ne u t with rfl | hu
    · rw [State.move_pc_self, State.move_mutex, ← hs.owner u, hpc, hc]
    · rw [State.move_pc_of_ne _ _ _ hu, State.move_mutex, hs.owner u]
  · have hflight : (s.move t c).inFlight = s.inFlight := by
      unfold State.inFlight
      rw [State.move_mutex]
      cases hm : s.mutex with
      | none => rfl
      | some u =>
        have hu : u ≠ t := by
          rintro rfl
          rw [(hs.owner u).mpr hm] at hpc
          cases hpc
        simp only [State.move_pc_of_ne _ _ _ hu]
    rw [State.move_log, State.move_returned, hflight, hs.log]

/-- A thread moves to or from a point where it holds the mutex; `l` is logged and `r`
returned. -/
theorem Inv.move_owner {s s₁ : State Tid m_max_depth} (hs : Inv s) {t : Tid} {c c' : Pc}
    {l r : List (Entry Tid)} (hc : s.pc t = c) (hpc : s₁.pc = s.pc)
    (howns : s.mutex = if c.holdsMutex then some t else none)
    (howns' : s₁.mutex = if c'.holdsMutex then some t else none)
    (hlog : s₁.log = s.log ++ l) (hret : s₁.returned = s.returned ++ r)
    (hentry : c.entry t ++ l = r ++ c'.entry t) : Inv (s₁.move t c') := by
  subst hc
  constructor
  · intro u
    rw [State.move_mutex, howns']
    rcases eq_or_ne u t with rfl | hu
    · rw [State.move_pc_self]
      cases c'.holdsMutex <;> simp
    · rw [State.move_pc_of_ne _ _ _ hu, hpc, hs.owner u, howns]
      refine iff_of_false ?_ ?_ <;> split <;> simp [hu.symm]
  · have hflight : (s₁.move t c').inFlight = c'.entry t := by
      rw [State.inFlight_of_owner (t := t) (by rw [State.move_pc_self]; exact howns'),
        State.move_pc_self]
    rw [State.move_log, State.move_returned, hlog, hret, hs.log, State.inFlight_of_owner howns,
      hflight, List.append_assoc, List.append_assoc, hentry]

/-- Where the mutex is held, it is held by the thread there. -/
theorem Inv.owns {s : State Tid m_max_depth} (hs : Inv s) {t : Tid} {c : Pc} (hpc : s.pc t = c)
    (hc : c.holdsMutex = true) : s.mutex = some t :=
  (hs.owner t).mp (by rw [hpc, hc])

theorem Pc.holdsMutex_after (c : Call) (a : c.Answer) : (State.after c a).holdsMutex = true := by
  cases c with
  | push cmd => cases a <;> rfl
  | _ => rfl

theorem Pc.entry_after (t : Tid) (c : Call) (a : c.Answer) :
    (State.after c a).entry t = [⟨t, c, a⟩] := by
  cases c with
  | push cmd => cases a <;> rfl
  | _ => rfl

theorem Inv.release {s : State Tid m_max_depth} (hs : Inv s) {target : Option Tid}
    (htarget : canNotify s target = true) (timedOut : Bool) : Inv (release s target timedOut) := by
  cases target with
  | none => exact hs
  | some u =>
    have hpc : s.pc u = .parked := Pc.isParked_iff.mp htarget
    exact hs.move_free (by rw [hpc]; rfl) rfl

/-- Every step keeps the invariant. -/
theorem Inv.step {s s' : State Tid m_max_depth} {t : Tid} (hs : Inv s) (h : Step s t s') :
    Inv s' := by
  cases h with
  | call c hpc => exact hs.move_free (by rw [hpc]; rfl) rfl
  | wake timedOut hpc => exact hs.move_free (by rw [hpc]; rfl) rfl
  | lock c hpc hfree =>
    exact hs.move_owner (l := []) (r := []) hpc rfl hfree rfl (by simp) (by simp) rfl
  | relock timedOut hpc hfree =>
    exact hs.move_owner (l := []) (r := []) hpc rfl hfree rfl (by simp) (by simp) rfl
  | answer c a q hpc hq =>
    have howns := hs.owns hpc rfl
    exact hs.move_owner (r := []) hpc rfl howns (by rw [Pc.holdsMutex_after]; exact howns) rfl
      (by simp [State.answer]) (Pc.entry_after t c a).symm
  | reanswer timedOut item q hpc hq =>
    have howns := hs.owns hpc rfl
    exact hs.move_owner (r := []) hpc rfl howns howns rfl (by simp [State.answer]) rfl
  | park c hpc hholds hflight hempty =>
    exact hs.move_owner (l := []) (r := []) hpc rfl (by rw [hholds]; exact hs.owns hpc hholds) rfl
      (by simp) (by simp) (by rw [hflight]; rfl)
  | notify cmd target timedOut hpc htarget =>
    have hpc' : (QueueThreads.release s target timedOut).pc t = .notifying cmd := by
      rw [release_pc_of_ne (ne_of_canNotify hpc htarget), hpc]
    exact (hs.release htarget timedOut).move_owner (l := []) (r := []) hpc' rfl
      ((hs.release htarget timedOut).owns hpc' rfl) ((hs.release htarget timedOut).owns hpc' rfl)
      (by simp) (by simp) rfl
  | unlock c a hpc =>
    exact hs.move_owner (l := []) hpc rfl (hs.owns hpc rfl) rfl (by simp) rfl rfl

/-! ## The bounded FIFO queue -/

/-- The event of a call with its answer. -/
def event : (c : Call) → c.Answer → BoundedFifo.Event Command
  | .push cmd, ok => .put cmd ok
  | .tryPop, item => .take item
  | .popWait, item => .take item
  | .empty, b => .isEmpty b
  | .size, n => .size n.toNat

/-- The history of the queue. -/
def State.history (s : State Tid m_max_depth) : List (BoundedFifo.Event Command) :=
  s.log.map fun e => event e.call e.answer

theorem takes_of_explains {q q' : CommandQueue m_max_depth} {item : Option Command}
    (hitem : item = none ↔ q.m_queue = []) (hq : q.m_queue = item.toList ++ q'.m_queue) :
    Applies m_max_depth.toNat q.m_queue (.take item) q'.m_queue := by
  rw [Applies.take_iff]
  cases item with
  | none =>
    have hnil := hitem.mp rfl
    rw [hnil] at hq
    exact Or.inl ⟨hnil, rfl, hq.symm⟩
  | some cmd => exact Or.inr ⟨cmd, rfl, hq⟩

/-- An answer the contents call for is an event of the bounded FIFO queue. -/
theorem Explains.applies {q q' : CommandQueue m_max_depth} {c : Call} {a : c.Answer}
    (h : Explains q c a q') : Applies m_max_depth.toNat q.m_queue (event c a) q'.m_queue := by
  cases c with
  | push cmd =>
    obtain ⟨hfull, hno, hyes⟩ := h
    rw [event, Applies.put_iff]
    cases a with
    | false =>
      rw [hno rfl]
      exact Or.inr ⟨Nat.le_of_eq (hfull.mp rfl).symm, rfl, rfl⟩
    | true =>
      have hne : q.m_queue.length ≠ m_max_depth.toNat := fun h => nomatch hfull.mpr h
      exact Or.inl ⟨Nat.lt_of_le_of_ne q.bound hne, rfl, hyes rfl⟩
  | tryPop => exact takes_of_explains h.1 h.2
  | popWait => exact takes_of_explains h.1 h.2
  | empty =>
    obtain ⟨hb, rfl⟩ := h
    obtain rfl : a = q'.m_queue.isEmpty := by
      rw [Bool.eq_iff_iff, hb, List.isEmpty_iff]
    exact Applies.isEmpty _
  | size =>
    obtain ⟨hn, rfl⟩ := h
    rw [event, hn]
    exact Applies.size _

/-- A step logs nothing and leaves the queue alone, or logs one call of the thread with the
answer the contents call for. -/
theorem explains {s s' : State Tid m_max_depth} {t : Tid} (h : Step s t s') :
    (s'.log = s.log ∧ s'.queue = s.queue) ∨ ∃ (c : Call) (a : c.Answer),
      s'.log = s.log ++ [⟨t, c, a⟩] ∧ Explains s.queue c a s'.queue := by
  cases h with
  | answer c a q hpc hq => exact Or.inr ⟨c, a, rfl, hq⟩
  | reanswer timedOut item q hpc hq => exact Or.inr ⟨.popWait, item, rfl, hq⟩
  | notify cmd target timedOut hpc htarget => cases target <;> exact Or.inl ⟨rfl, rfl⟩
  | _ => exact Or.inl ⟨rfl, rfl⟩

/-- The threads refine the bounded FIFO queue. -/
theorem refines : (system Tid m_max_depth).Refines (fifo Command m_max_depth.toNat)
    (fun s => s.queue.m_queue) State.history where
  initial s h := by
    subst h
    exact ⟨rfl, rfl⟩
  step s i s' _ h := by
    rcases explains (step_of_next h) with ⟨hlog, hq⟩ | ⟨c, a, hlog, hq⟩
    · refine ⟨[], ?_, ?_⟩
      · rw [State.history, hlog, List.append_nil, State.history]
      · rw [hq]
        exact .nil _
    · refine ⟨[event c a], ?_, .single hq.applies⟩
      rw [State.history, hlog, List.map_append, State.history]
      rfl

theorem inv_reachable {s : State Tid m_max_depth} (h : (system Tid m_max_depth).Reachable s) :
    Inv s := by
  refine h.induct (fun s hs => ?_) fun s i s' _ hs hstep => hs.step (step_of_next hstep)
  obtain rfl : s = State.init Tid m_max_depth := hs
  exact inv_init

/-- The threads linearise to the bounded FIFO queue at `s`. -/
structure Linearises (s : State Tid m_max_depth) : Prop where
  /-- The calls, in the order of their bodies, are a history of the sequential queue that
  ends with the contents. -/
  history : (fifo Command m_max_depth.toNat).Run [] s.history s.queue.m_queue
  /-- The calls that returned are the logged ones but the one that holds the mutex. -/
  returned : s.log = s.returned ++ s.inFlight
  /-- What `push` accepted is what was popped followed by the contents. -/
  conserved : accepted s.history = taken s.history ++ s.queue.m_queue
  bounded : s.queue.m_queue.length ≤ m_max_depth.toNat
  /-- Every step out of `s` that gives an answer gives the one the contents call for. -/
  answers : ∀ t m s', next s t m = some s' →
    (s'.log = s.log ∧ s'.queue = s.queue) ∨ ∃ (c : Call) (a : c.Answer),
      s'.log = s.log ++ [⟨t, c, a⟩] ∧ Explains s.queue c a s'.queue

/-- Every reachable state linearises. -/
theorem linearises {s : State Tid m_max_depth} (h : (system Tid m_max_depth).Reachable s) :
    Linearises s := by
  obtain ⟨q, hq, hrun⟩ := refines.reachable h
  obtain rfl : q = [] := hq
  exact {
    history := hrun
    returned := (inv_reachable h).log
    conserved := by simpa using BoundedFifo.run_accepted hrun
    bounded := s.queue.bound
    answers := fun t m s' hs => explains (step_of_next hs) }

/-- Two threads park in `popWait`; a third pushes and notifies one of them. -/
def handoff : List (Fin 3 × Move (Fin 3)) :=
  [(1, .call .popWait), (1, .lock), (1, .body), (2, .call .popWait), (2, .lock), (2, .body),
    (0, .call (.push {})), (0, .lock), (0, .body), (0, .notify (some 1) false), (0, .unlock)]

theorem handoff_runs : (Transitions.exec (fun s i => next s i.1 i.2)
    (State.init (Fin 3) 32) handoff).isSome = true := by
  decide

/-- The state after the handoff. -/
def handedOff : State (Fin 3) 32 :=
  (Transitions.exec (fun s i => next s i.1 i.2) (State.init (Fin 3) 32) handoff).get handoff_runs

theorem handedOff_reachable : (system (Fin 3) 32).Reachable handedOff :=
  Transitions.reachable_of_exec handoff (Option.some_get handoff_runs).symm

theorem linearises_handedOff : Linearises handedOff ∧ handedOff.queue.m_queue.length = 1 :=
  ⟨linearises handedOff_reachable, by decide⟩

/-! ## Wake-ups -/

/-- No thread is parked, or the threads on their way to the predicate and the notifications
to come are as many as the queued commands. -/
def Covered (s : State Tid m_max_depth) : Prop :=
  holding Pc.isParked s.pc = 0 ∨
    s.queue.m_queue.length ≤ holding Pc.isReturning s.pc + holding Pc.isNotifying s.pc

theorem holding_move (p : Pc → Bool) {s s₁ : State Tid m_max_depth} {t : Tid} {c : Pc} (c' : Pc)
    (hc : s.pc t = c) (hpc : s₁.pc = s.pc) :
    holding p (s₁.move t c').pc + (p c).toNat = holding p s.pc + (p c').toNat := by
  rw [State.move, hpc, ← hc]
  exact holding_update p s.pc t c'

/-- One thread moves : the queue grows by no more than the cover, or is empty. -/
theorem Covered.move {s s₁ : State Tid m_max_depth} (hs : Covered s) {t : Tid} {c c' : Pc}
    (hc : s.pc t = c) (hpc : s₁.pc = s.pc)
    (hlen : s₁.queue.m_queue.length = 0 ∨ (c'.isParked = false ∧
      s₁.queue.m_queue.length + c.isReturning.toNat + c.isNotifying.toNat ≤
        s.queue.m_queue.length + c'.isReturning.toNat + c'.isNotifying.toNat)) :
    Covered (s₁.move t c') := by
  have hparked := holding_move Pc.isParked c' hc hpc
  have hreturning := holding_move Pc.isReturning c' hc hpc
  have hnotifying := holding_move Pc.isNotifying c' hc hpc
  unfold Covered at *
  rw [State.move_queue]
  rcases hlen with hlen | ⟨hp, hlen⟩
  · right
    omega
  · rw [hp, Bool.toNat_false] at hparked
    omega

theorem Explains.length_le {q q' : CommandQueue m_max_depth} {c : Call} {a : c.Answer}
    (h : Explains q c a q') :
    q'.m_queue.length ≤ q.m_queue.length + (State.after c a).isNotifying.toNat := by
  cases c with
  | push cmd =>
    cases a with
    | false =>
      rw [h.2.1 rfl]
      exact Nat.le_add_right _ _
    | true =>
      rw [h.2.2 rfl, List.length_append]
      exact Nat.le_refl _
  | tryPop =>
    rw [h.2, List.length_append]
    omega
  | popWait =>
    rw [h.2, List.length_append]
    omega
  | empty => rw [h.2]; exact Nat.le_add_right _ _
  | size => rw [h.2]; exact Nat.le_add_right _ _

theorem Explains.popWait_length {q q' : CommandQueue m_max_depth} {item : Option Command}
    (h : Explains q .popWait item q') :
    q'.m_queue.length = 0 ∨ q'.m_queue.length + 1 = q.m_queue.length := by
  obtain ⟨hitem, hq⟩ := h
  cases item with
  | none =>
    left
    rw [hitem.mp rfl] at hq
    rw [← List.nil_append q'.m_queue]
    exact congrArg List.length hq.symm
  | some cmd =>
    right
    rw [hq]
    rfl

theorem Pc.isParked_after (c : Call) (a : c.Answer) :
    (State.after c a).isParked = false ∧ (State.after c a).isReturning = false := by
  cases c with
  | push cmd => cases a <;> exact ⟨rfl, rfl⟩
  | _ => exact ⟨rfl, rfl⟩

/-- A notification turns a parked thread into a returning one, if there is one. -/
theorem Covered.notify {s : State Tid m_max_depth} (hs : Covered s) {t : Tid} {cmd : Command}
    {target : Option Tid} (hpc : s.pc t = .notifying cmd) (htarget : canNotify s target = true)
    (timedOut : Bool) :
    Covered ((release s target timedOut).move t (.leaving (.push cmd) true)) := by
  have hpc' : (release s target timedOut).pc t = .notifying cmd := by
    rw [release_pc_of_ne (ne_of_canNotify hpc htarget), hpc]
  have hparked := holding_move Pc.isParked (.leaving (.push cmd) true) hpc' rfl
  have hreturning := holding_move Pc.isReturning (.leaving (.push cmd) true) hpc' rfl
  have hnotifying := holding_move Pc.isNotifying (.leaving (.push cmd) true) hpc' rfl
  unfold Covered at *
  cases target with
  | none =>
    have hnone : holding Pc.isParked s.pc = 0 := holding_eq_zero_iff.mpr (of_decide_eq_true htarget)
    left
    exact hparked.trans hnone
  | some u =>
    have hu : s.pc u = .parked := Pc.isParked_iff.mp htarget
    have hparked' := holding_move Pc.isParked (.released timedOut) hu rfl
    have hreturning' := holding_move Pc.isReturning (.released timedOut) hu rfl
    have hnotifying' := holding_move Pc.isNotifying (.released timedOut) hu rfl
    simp only [release, Pc.isParked, Pc.isReturning, Pc.isNotifying, Bool.toNat_true,
      Bool.toNat_false, State.move_queue] at *
    omega

/-- Every step keeps the cover. -/
theorem Covered.step {s s' : State Tid m_max_depth} {t : Tid} (hs : Covered s)
    (h : Step s t s') : Covered s' := by
  cases h with
  | call c hpc => exact hs.move hpc rfl (Or.inr ⟨rfl, Nat.le_refl _⟩)
  | lock c hpc hfree => exact hs.move hpc rfl (Or.inr ⟨rfl, Nat.le_refl _⟩)
  | relock timedOut hpc hfree => exact hs.move hpc rfl (Or.inr ⟨rfl, Nat.le_refl _⟩)
  | answer c a q hpc hq =>
    obtain ⟨hp, hr⟩ := Pc.isParked_after c a
    refine hs.move hpc rfl (Or.inr ⟨hp, ?_⟩)
    rw [hr]
    exact hq.length_le
  | reanswer timedOut item q hpc hq =>
    rcases hq.popWait_length with h | h
    · exact hs.move hpc rfl (Or.inl h)
    · exact hs.move hpc rfl (Or.inr ⟨rfl, Nat.le_of_eq h⟩)
  | park c hpc hholds hflight hempty =>
    exact hs.move hpc rfl (Or.inl (congrArg List.length hempty))
  | notify cmd target timedOut hpc htarget => exact hs.notify hpc htarget timedOut
  | unlock c a hpc => exact hs.move hpc rfl (Or.inr ⟨rfl, Nat.le_refl _⟩)
  | wake timedOut hpc => exact hs.move hpc rfl (Or.inr ⟨rfl, Nat.le_succ _⟩)

theorem covered_reachable {s : State Tid m_max_depth}
    (h : (system Tid m_max_depth).Reachable s) : Covered s := by
  refine h.induct (fun s hs => ?_) fun s i s' _ hs hstep => hs.step (step_of_next hstep)
  obtain rfl : s = State.init Tid m_max_depth := hs
  exact Or.inl (holding_eq_zero_iff.mpr fun _ => rfl)

/-- While the mutex is free, nobody notifies and a returning thread is one that was released. -/
theorem Inv.holding_of_free {s : State Tid m_max_depth} (hs : Inv s) (hfree : s.mutex = none) :
    holding Pc.isNotifying s.pc = 0 ∧
      holding Pc.isReturning s.pc = holding Pc.isReleased s.pc := by
  have hout : ∀ u, (s.pc u).holdsMutex = false := by
    intro u
    rw [Bool.eq_false_iff, Ne, hs.owner u, hfree]
    exact fun h => nomatch h
  constructor
  · refine holding_eq_zero_iff.mpr fun u => ?_
    have hu := hout u
    cases hc : s.pc u <;> rw [hc] at hu <;> first | rfl | cases hu
  · unfold holding
    congr 1
    refine Finset.filter_congr fun u _ => ?_
    have hu := hout u
    cases hc : s.pc u <;> rw [hc] at hu <;> first | exact Iff.rfl | cases hu

/-- No wake-up is lost at `s`. -/
structure NoLostWakeup (s : State Tid m_max_depth) : Prop where
  /-- With the mutex free, no thread is parked or the released threads are as many as the
  queued commands. -/
  covered : s.mutex = none → holding Pc.isParked s.pc = 0 ∨
    s.queue.m_queue.length ≤ holding Pc.isReleased s.pc
  /-- Unless a `push` is about to notify, there is no queued command with a parked thread and
  nobody on the way to the predicate. -/
  awake : holding Pc.isNotifying s.pc = 0 → ¬(s.queue.m_queue ≠ [] ∧
    0 < holding Pc.isParked s.pc ∧ holding Pc.isReturning s.pc = 0)

/-- No reachable state has lost a wake-up. -/
theorem wakeups {s : State Tid m_max_depth} (h : (system Tid m_max_depth).Reachable s) :
    NoLostWakeup s := by
  have hcovered := covered_reachable h
  constructor
  · intro hfree
    obtain ⟨hnotifying, hreleased⟩ := (inv_reachable h).holding_of_free hfree
    rwa [Covered, hnotifying, hreleased] at hcovered
  · rintro hnotifying ⟨hne, hparked, hreturning⟩
    have hlen := List.length_pos_iff.mpr hne
    unfold Covered at hcovered
    omega

theorem wakeups_handedOff : NoLostWakeup handedOff ∧ holding Pc.isParked handedOff.pc = 1 ∧
    holding Pc.isReleased handedOff.pc = 1 :=
  ⟨wakeups handedOff_reachable, by decide, by decide⟩

end Threads

end QueueThreads

end Obcsw
