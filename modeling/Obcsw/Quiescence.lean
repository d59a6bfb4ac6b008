import Obcsw.QueueThreads

/-!
# Quiescence of the command queue

A thread in a method of `CommandQueue` needs a bounded number of steps, except for a `popWait`
on an empty queue, which parks and looks again each time its wait ends. So between the calls,
timeouts and spurious wake-ups that come from outside only boundedly many steps are taken, and
some thread can take one until every thread is outside the methods or parked. Then nobody holds
the mutex, every answered call has returned, and nobody is parked in front of a command.
-/

set_option linter.unusedSectionVars false

open Transitions (holding weight weight_update weight_le_card holding_eq_zero_iff)

namespace Obcsw

namespace QueueThreads

/-! ## The steps left -/

/-- The steps of a thread until it is outside the methods or parked; a notification also pays
for those of the thread it releases. -/
def Pc.remaining : Pc → ℕ
  | idle | parked => 0
  | leaving _ _ => 1
  | rechecking _ => 2
  | released _ => 3
  | notifying _ => 5
  | locked _ => 6
  | entering _ => 7

/-- What a step from outside adds, and itself. -/
def Move.pay {Tid : Type} : Move Tid → ℕ
  | call _ => 8
  | wake _ => 4
  | _ => 0

/-- The move is a step of a method that waits for nothing but the mutex. -/
def Move.isOwn {Tid : Type} : Move Tid → Bool
  | lock | body | notify _ _ | unlock => true
  | _ => false

section Threads

variable {Tid : Type} [Fintype Tid] [DecidableEq Tid] {m_max_depth : UInt32}

/-- The steps until every thread is outside the methods or parked. -/
def State.remaining (s : State Tid m_max_depth) : ℕ :=
  weight Pc.remaining s.pc

theorem remaining_move {s s₁ : State Tid m_max_depth} {t : Tid} {c : Pc} (c' : Pc)
    (hc : s.pc t = c) (hpc : s₁.pc = s.pc) :
    (s₁.move t c').remaining + c.remaining = s.remaining + c'.remaining := by
  rw [State.remaining, State.move, hpc, ← hc]
  exact weight_update Pc.remaining s.pc t c'

/-- One thread moves on; `k` is what its move pays. -/
theorem remaining_move_lt {s s₁ : State Tid m_max_depth} {t : Tid} {c c' : Pc} {k : ℕ}
    (hc : s.pc t = c) (hpc : s₁.pc = s.pc) (hlt : c'.remaining + 1 ≤ c.remaining + k) :
    (s₁.move t c').remaining + 1 ≤ s.remaining + k := by
  have hmove := remaining_move c' hc hpc
  omega

theorem Pc.remaining_after (c : Call) (a : c.Answer) : (State.after c a).remaining ≤ 5 := by
  cases c with
  | push cmd => cases a <;> simp [State.after, remaining]
  | _ => simp [State.after, remaining]

/-- A notification moves its thread on, and the thread it releases. -/
theorem remaining_notify {s : State Tid m_max_depth} {t : Tid} {cmd : Command}
    {target : Option Tid} (hpc : s.pc t = .notifying cmd) (htarget : canNotify s target = true)
    (timedOut : Bool) :
    ((release s target timedOut).move t (.leaving (.push cmd) true)).remaining + 1 ≤
      s.remaining := by
  have hpc' : (release s target timedOut).pc t = .notifying cmd := by
    rw [release_pc_of_ne (ne_of_canNotify hpc htarget), hpc]
  have hmove := remaining_move (.leaving (.push cmd) true) hpc' rfl
  have hrelease : (release s target timedOut).remaining ≤ s.remaining + 3 := by
    cases target with
    | none => exact Nat.le_add_right _ _
    | some u =>
      have hu : s.pc u = .parked := Pc.isParked_iff.mp htarget
      exact Nat.le_of_eq (remaining_move (Pc.released timedOut) hu (rfl : s.pc = s.pc))
  simp only [Pc.remaining] at hmove
  omega

/-- Every step leaves fewer steps, but for what its move pays for. -/
theorem remaining_of_next {s s' : State Tid m_max_depth} {t : Tid} {m : Move Tid}
    (h : next s t m = some s') : s'.remaining + 1 ≤ s.remaining + m.pay := by
  unfold next at h
  split at h
  · next c hpc =>
    obtain rfl := Option.some.inj h
    exact remaining_move_lt hpc rfl (Nat.le_refl 8)
  · next c hpc =>
    split at h
    · obtain rfl := Option.some.inj h
      exact remaining_move_lt hpc rfl (Nat.le_refl 7)
    · cases h
  · next timedOut hpc =>
    split at h
    · obtain rfl := Option.some.inj h
      exact remaining_move_lt hpc rfl (Nat.le_refl 3)
    · cases h
  · next c hpc =>
    split at h
    · next a q hb =>
      obtain rfl := Option.some.inj h
      exact remaining_move_lt hpc rfl (Nat.succ_le_succ (Pc.remaining_after c a))
    · obtain rfl := Option.some.inj h
      exact remaining_move_lt hpc rfl (Nat.succ_le_succ (Nat.zero_le 5))
  · next timedOut hpc =>
    split at h
    · obtain rfl := Option.some.inj h
      exact remaining_move_lt hpc rfl (Nat.le_refl 2)
    · split at h
      · obtain rfl := Option.some.inj h
        exact remaining_move_lt hpc rfl (Nat.le_refl 2)
      · obtain rfl := Option.some.inj h
        exact remaining_move_lt hpc rfl (Nat.succ_le_succ (Nat.zero_le 1))
  · next target timedOut cmd hpc =>
    split at h
    · next htarget =>
      obtain rfl := Option.some.inj h
      exact remaining_notify hpc htarget timedOut
    · cases h
  · next c a hpc =>
    obtain rfl := Option.some.inj h
    exact remaining_move_lt hpc rfl (Nat.le_refl 1)
  · next timedOut hpc =>
    obtain rfl := Option.some.inj h
    exact remaining_move_lt hpc rfl (Nat.le_refl 4)
  · cases h

/-! ## Some thread can go on -/

/-- The thread is outside the methods, or parked. -/
def Pc.atRest : Pc → Bool
  | idle | parked => true
  | _ => false

/-- The owner of the mutex can go on. -/
theorem exists_owner_step {s : State Tid m_max_depth} {t : Tid}
    (ht : (s.pc t).holdsMutex = true) :
    ∃ m : Move Tid, m.isOwn = true ∧ (next s t m).isSome = true := by
  cases hpc : s.pc t with
  | locked c =>
    refine ⟨.body, rfl, ?_⟩
    simp only [next, hpc]
    split <;> rfl
  | notifying cmd =>
    by_cases hparked : ∃ u, (s.pc u).isParked = true
    · obtain ⟨u, hu⟩ := hparked
      exact ⟨.notify (some u) false, rfl, by simp [next, hpc, canNotify, hu]⟩
    · refine ⟨.notify none false, rfl, ?_⟩
      simp only [not_exists, Bool.not_eq_true] at hparked
      simp [next, hpc, canNotify, hparked]
  | rechecking timedOut =>
    refine ⟨.body, rfl, ?_⟩
    simp only [next, hpc]
    split
    · rfl
    · cases timedOut <;> rfl
  | leaving c a => exact ⟨.unlock, rfl, by simp [next, hpc]⟩
  | _ =>
    rw [hpc] at ht
    cases ht

/-- With the mutex free, a thread in the middle of a method can lock it. -/
theorem exists_lock_step {s : State Tid m_max_depth} {t : Tid} (hfree : s.mutex = none)
    (ht : (s.pc t).holdsMutex = false) (hrest : (s.pc t).atRest = false) :
    (next s t .lock).isSome = true := by
  cases hpc : s.pc t with
  | entering c => simp [next, hpc, hfree]
  | released timedOut => simp [next, hpc, hfree]
  | _ => simp [hpc, Pc.holdsMutex, Pc.atRest] at ht hrest

/-- While a thread is in the middle of a method, some thread can go on. -/
theorem Inv.exists_step {s : State Tid m_max_depth} (hs : Inv s) {u : Tid}
    (hu : (s.pc u).atRest = false) :
    ∃ t, ∃ m : Move Tid, m.isOwn = true ∧ (next s t m).isSome = true := by
  cases hm : s.mutex with
  | some t => exact ⟨t, exists_owner_step ((hs.owner t).mpr hm)⟩
  | none =>
    have hout : (s.pc u).holdsMutex = false := by
      rw [Bool.eq_false_iff, Ne, hs.owner u, hm]
      exact fun h => nomatch h
    exact ⟨u, .lock, rfl, exists_lock_step hm hout hu⟩

/-! ## The result -/

/-- From `s` the threads come to rest, and at rest nothing is left undone. -/
structure Quiesces (s : State Tid m_max_depth) : Prop where
  /-- A run is no longer than the threads, and the calls and wake-ups in it, pay for. -/
  bounded : ∀ is s', (system Tid m_max_depth).Run s is s' →
    is.length ≤ 7 * Fintype.card Tid + (is.map fun i => i.2.pay).sum
  /-- Some thread can go on by itself, or all are outside the methods or parked. -/
  progress : (∀ t, (s.pc t).atRest = true) ∨ ∃ t, ∃ m : Move Tid, m.isOwn = true ∧
    ∃ s', next s t m = some s'
  /-- At rest the mutex is free, every answered call has returned, and nobody is parked while
  there is a command. -/
  rest : (∀ t, (s.pc t).atRest = true) → s.mutex = none ∧ s.returned = s.log ∧
    ((∃ t, s.pc t = .parked) → s.queue.m_queue = [])

theorem Pc.holdsMutex_of_atRest {c : Pc} (h : c.atRest = true) :
    c.holdsMutex = false ∧ c.isReturning = false ∧ c.isNotifying = false := by
  cases c <;> first | exact ⟨rfl, rfl, rfl⟩ | cases h

/-- Every reachable state comes to rest. -/
theorem quiesces {s : State Tid m_max_depth} (h : (system Tid m_max_depth).Reachable s) :
    Quiesces s := by
  have hinv := inv_reachable h
  constructor
  · intro is s' hr
    have hlower : ∀ (s : State Tid m_max_depth) (i : Tid × Move Tid) (s' : State Tid m_max_depth),
        True → True → (system Tid m_max_depth).step s i s' →
        True ∧ s'.remaining + 1 ≤ s.remaining + i.2.pay :=
      fun _ _ _ _ _ h => ⟨trivial, remaining_of_next h⟩
    have hlen := hr.length_le_of_rank hlower (fun _ _ => trivial) trivial
    have hle : s.remaining ≤ 7 * Fintype.card Tid :=
      weight_le_card (fun c => by cases c <;> simp [Pc.remaining]) s.pc
    omega
  · by_cases hrest : ∀ t, (s.pc t).atRest = true
    · exact Or.inl hrest
    · obtain ⟨u, hu⟩ := not_forall.mp hrest
      obtain ⟨t, m, hm, hsome⟩ := hinv.exists_step (Bool.eq_false_iff.mpr hu)
      exact Or.inr ⟨t, m, hm, Option.isSome_iff_exists.mp hsome⟩
  · intro hrest
    have hfree : s.mutex = none := by
      refine Option.eq_none_iff_forall_ne_some.mpr fun t ht => ?_
      have howner := (hinv.owner t).mpr ht
      rw [(Pc.holdsMutex_of_atRest (hrest t)).1] at howner
      cases howner
    refine ⟨hfree, ?_, ?_⟩
    · rw [hinv.log, State.inFlight, hfree]
      exact (List.append_nil _).symm
    · rintro ⟨t, ht⟩
      have hreturning : holding Pc.isReturning s.pc = 0 :=
        holding_eq_zero_iff.mpr fun t => (Pc.holdsMutex_of_atRest (hrest t)).2.1
      have hnotifying : holding Pc.isNotifying s.pc = 0 :=
        holding_eq_zero_iff.mpr fun t => (Pc.holdsMutex_of_atRest (hrest t)).2.2
      have hcovered := covered_reachable h
      rw [Covered, hreturning, hnotifying] at hcovered
      rcases hcovered with hnone | hlen
      · have hparked := holding_eq_zero_iff.mp hnone t
        rw [ht] at hparked
        cases hparked
      · exact List.eq_nil_of_length_eq_zero (Nat.le_zero.mp hlen)

/-- One thread is parked, and one has been released. -/
theorem quiesces_handedOff : Quiesces handedOff ∧ (handedOff.pc 1).atRest = false ∧
    (handedOff.pc 2).atRest = true :=
  ⟨quiesces handedOff_reachable, by decide, by decide⟩

end Threads

end QueueThreads

end Obcsw
