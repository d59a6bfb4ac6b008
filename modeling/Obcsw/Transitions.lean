import Mathlib.Algebra.BigOperators.Group.Finset.Basic
import Mathlib.Algebra.GroupWithZero.Nat
import Mathlib.Algebra.Order.BigOperators.Group.Finset
import Mathlib.Data.Fintype.Card
import Mathlib.Logic.Function.Basic
import Mathlib.Tactic.Common

/-!
# Labelled transition systems

Threads that interleave are modelled as one system whose labels say which thread moves and
what the scheduler chose. `Run` is a finite run with its labels, `Reachable` the end of a
run from an initial state.

* `Reachable.induct` : what holds initially and is kept by every step out of a reachable
  state holds in every reachable state.
* `Run.induct` : what every step with an allowed label keeps holds at the end of a run of
  such steps.
* `Run.trace_induct` : what relates the labels so far to the state, and is kept by every step,
  holds at the end of a run.
* `Run.erase` : steps that a map of states does not see can be taken out of a run.
* `Run.length_le_of_rank` : a rank that steps lower bounds the runs.
* `Refines` : a map to the states of an abstract system, and a log of abstract labels that
  each concrete step extends by a run of the abstract system. Then the whole log is a run
  of the abstract system (`Refines.reachable`).
* `holding` counts the threads whose control point satisfies a predicate, and
  `holding_update` says how the count moves when one thread moves; `weight` is the same for a
  predicate that weighs.
-/

set_option linter.unusedSectionVars false

/-- States, the initial ones, and labelled steps. -/
structure Transitions (σ ι : Type*) where
  initial : σ → Prop
  step : σ → ι → σ → Prop

namespace Transitions

variable {σ ι : Type*} (T : Transitions σ ι)

/-- A finite run, with its labels in order. -/
inductive Run : σ → List ι → σ → Prop
  | nil (s : σ) : Run s [] s
  | cons {s s' s'' : σ} {i : ι} {is : List ι} : T.step s i s' → Run s' is s'' → Run s (i :: is) s''

/-- The states at the end of a run from an initial state. -/
def Reachable (s : σ) : Prop :=
  ∃ s₀ is, T.initial s₀ ∧ T.Run s₀ is s

variable {T}

@[simp] theorem run_nil_iff {s s' : σ} : T.Run s [] s' ↔ s = s' := by
  constructor
  · rintro ⟨⟩
    rfl
  · rintro rfl
    exact .nil s

@[simp] theorem run_cons_iff {s s' : σ} {i : ι} {is : List ι} :
    T.Run s (i :: is) s' ↔ ∃ s₁, T.step s i s₁ ∧ T.Run s₁ is s' := by
  constructor
  · rintro (_ | ⟨h, hr⟩)
    exact ⟨_, h, hr⟩
  · rintro ⟨s₁, h, hr⟩
    exact .cons h hr

theorem run_append_iff {is js : List ι} :
    ∀ {s s' : σ}, T.Run s (is ++ js) s' ↔ ∃ s₁, T.Run s is s₁ ∧ T.Run s₁ js s' := by
  induction is with
  | nil => simp
  | cons i is ih =>
    intro s s'
    simp only [List.cons_append, run_cons_iff, ih]
    constructor
    · rintro ⟨s₁, h, s₂, h₁, h₂⟩
      exact ⟨s₂, ⟨s₁, h, h₁⟩, h₂⟩
    · rintro ⟨s₂, ⟨s₁, h, h₁⟩, h₂⟩
      exact ⟨s₁, h, s₂, h₁, h₂⟩

/-- A run, split at one of its steps. -/
theorem run_split_iff {is js : List ι} {i : ι} {s s' : σ} :
    T.Run s (is ++ i :: js) s' ↔ ∃ s₁ s₂, T.Run s is s₁ ∧ T.step s₁ i s₂ ∧ T.Run s₂ js s' := by
  rw [run_append_iff]
  refine exists_congr fun s₁ => ?_
  rw [run_cons_iff, exists_and_left]

theorem Run.append {s s' s'' : σ} {is js : List ι} (h : T.Run s is s') (h' : T.Run s' js s'') :
    T.Run s (is ++ js) s'' :=
  run_append_iff.mpr ⟨s', h, h'⟩

theorem Run.single {s s' : σ} {i : ι} (h : T.step s i s') : T.Run s [i] s' :=
  .cons h (.nil s')

theorem reachable_of_initial {s : σ} (h : T.initial s) : T.Reachable s :=
  ⟨s, [], h, .nil s⟩

theorem Reachable.run {s s' : σ} {is : List ι} (h : T.Reachable s) (hr : T.Run s is s') :
    T.Reachable s' := by
  obtain ⟨s₀, js, h₀, hj⟩ := h
  exact ⟨s₀, js ++ is, h₀, hj.append hr⟩

theorem Reachable.step {s s' : σ} {i : ι} (h : T.Reachable s) (hs : T.step s i s') :
    T.Reachable s' :=
  h.run (.single hs)

/-- What every step with an allowed label keeps, a run of such steps keeps. -/
theorem Run.induct {I : σ → Prop} {P : ι → Prop}
    (hstep : ∀ s i s', P i → I s → T.step s i s' → I s') :
    ∀ {s s' : σ} {is : List ι}, T.Run s is s' → (∀ i ∈ is, P i) → I s → I s'
  | _, _, _, .nil _, _, hI => hI
  | _, _, _, .cons h hr, hal, hI =>
    Run.induct hstep hr (fun j hj => hal j (List.mem_cons_of_mem _ hj))
      (hstep _ _ _ (hal _ List.mem_cons_self) hI h)

/-- What holds of the labels so far and of the state, and is kept by every step out of a
reachable state, holds at the end of a run. -/
theorem Run.trace_induct {I : List ι → σ → Prop} {s s' : σ} {is : List ι} (hr : T.Run s is s')
    (hreach : T.Reachable s) (hinit : I [] s)
    (hstep : ∀ is s i s', T.Reachable s → I is s → T.step s i s' → I (is ++ [i]) s') :
    I is s' := by
  induction hr generalizing I with
  | nil s => exact hinit
  | @cons s s₁ s' i is h _ ih =>
    exact ih (I := fun is => I (i :: is)) (hreach.step h) (hstep [] s i s₁ hreach hinit h)
      fun js => hstep (i :: js)

/-- What holds initially and is kept by every step out of a reachable state holds in every
reachable state. -/
theorem Reachable.induct {I : σ → Prop} (hinit : ∀ s, T.initial s → I s)
    (hstep : ∀ s i s', T.Reachable s → I s → T.step s i s' → I s') {s : σ}
    (h : T.Reachable s) : I s := by
  obtain ⟨s₀, is, h₀, hr⟩ := h
  have hI : T.Reachable s ∧ I s :=
    hr.induct (I := fun s => T.Reachable s ∧ I s) (P := fun _ => True)
      (fun s i s' _ hs hs' => ⟨hs.1.step hs', hstep s i s' hs.1 hs.2 hs'⟩)
      (fun _ _ => trivial) ⟨reachable_of_initial h₀, hinit s₀ h₀⟩
  exact hI.2

/-- A map that the kept labels commute with, and the other steps of the run leave alone,
takes the run to one with the kept labels only. -/
theorem Run.erase {f : σ → σ} {keep : ι → Bool}
    (hkeep : ∀ s i s', keep i = true → T.step s i s' → T.step (f s) i (f s')) {is : List ι} :
    ∀ {s s' : σ}, T.Run s is s' →
      (∀ js i ks u u', is = js ++ i :: ks → T.Run s js u → T.step u i u' → T.Run u' ks s' →
        keep i = false → f u' = f u) →
      T.Run (f s) (is.filter keep) (f s') := by
  induction is with
  | nil =>
    intro s s' h _
    rw [run_nil_iff.mp h]
    exact .nil _
  | cons i is ih =>
    intro s s' h hdrop
    obtain ⟨s₁, hs, hr⟩ := run_cons_iff.mp h
    have hrest : T.Run (f s₁) (is.filter keep) (f s') := by
      refine ih hr fun js j ks u u' hsplit hj hu hk => ?_
      exact hdrop (i :: js) j ks u u' (by rw [hsplit, List.cons_append]) (.cons hs hj) hu hk
    cases hi : keep i with
    | true =>
      rw [List.filter_cons_of_pos hi]
      exact .cons (hkeep s i s₁ hi hs) hrest
    | false =>
      rw [List.filter_cons_of_neg (by rw [hi]; exact Bool.false_ne_true)]
      rw [← hdrop [] i is s s₁ rfl (.nil s) hs hr hi]
      exact hrest

/-! ## Ranks -/

section Rank

variable {I : σ → Prop} {rank : σ → ℕ}

/-- When every allowed step out of `I` keeps `I`, and lowers the rank but for what its label
pays for, a run of such steps is no longer than the rank at its start and the pay of its
labels. -/
theorem Run.length_le_of_rank {P : ι → Prop} {pay : ι → ℕ}
    (hstep : ∀ s i s', P i → I s → T.step s i s' → I s' ∧ rank s' + 1 ≤ rank s + pay i) :
    ∀ {s s' : σ} {is : List ι}, T.Run s is s' → (∀ i ∈ is, P i) → I s →
      is.length + rank s' ≤ rank s + (is.map pay).sum
  | s, _, _, .nil _, _, _ => by simp
  | s, s', _, @Run.cons _ _ _ _ s₁ _ i is h hr, hal, hI => by
    obtain ⟨hI', hrank⟩ := hstep _ _ _ (hal _ List.mem_cons_self) hI h
    have hrest := Run.length_le_of_rank hstep hr
      (fun j hj => hal j (List.mem_cons_of_mem _ hj)) hI'
    rw [List.length_cons, List.map_cons, List.sum_cons]
    omega

end Rank

/-! ## Systems that compute their steps -/

/-- The system of a partial step function, from one initial state. -/
def ofPartial (s₀ : σ) (f : σ → ι → Option σ) : Transitions σ ι where
  initial s := s = s₀
  step s i s' := f s i = some s'

/-- Run a partial step function along a list of labels. -/
def exec (f : σ → ι → Option σ) : σ → List ι → Option σ
  | s, [] => some s
  | s, i :: is => (f s i).bind fun s' => exec f s' is

theorem run_ofPartial_iff {s₀ : σ} {f : σ → ι → Option σ} {is : List ι} :
    ∀ {s s' : σ}, (ofPartial s₀ f).Run s is s' ↔ exec f s is = some s' := by
  induction is with
  | nil => simp [exec]
  | cons i is ih =>
    intro s s'
    simp only [run_cons_iff, exec, Option.bind_eq_some_iff]
    exact exists_congr fun s₁ => and_congr Iff.rfl ih

theorem reachable_of_exec {s₀ s : σ} {f : σ → ι → Option σ} (is : List ι)
    (h : exec f s₀ is = some s) : (ofPartial s₀ f).Reachable s :=
  ⟨s₀, is, rfl, run_ofPartial_iff.mpr h⟩

/-! ## Refinement -/

section Refinement

variable {τ κ : Type*}

/-- `abs` maps concrete to abstract states and `log` collects abstract labels : initially
none, and each step out of a reachable state appends a run of the abstract system. -/
structure Refines (T : Transitions σ ι) (A : Transitions τ κ) (abs : σ → τ)
    (log : σ → List κ) : Prop where
  initial : ∀ s, T.initial s → A.initial (abs s) ∧ log s = []
  step : ∀ s i s', T.Reachable s → T.step s i s' →
    ∃ ks, log s' = log s ++ ks ∧ A.Run (abs s) ks (abs s')

/-- The log of a reachable state is a run of the abstract system to its image. -/
theorem Refines.reachable {A : Transitions τ κ} {abs : σ → τ} {log : σ → List κ}
    (R : Refines T A abs log) {s : σ} (h : T.Reachable s) :
    ∃ t, A.initial t ∧ A.Run t (log s) (abs s) := by
  refine h.induct (I := fun s => ∃ t, A.initial t ∧ A.Run t (log s) (abs s)) ?_ ?_
  · intro s hs
    obtain ⟨ha, hl⟩ := R.initial s hs
    exact ⟨abs s, ha, by rw [hl]; exact .nil _⟩
  · rintro s i s' hr ⟨t, ht, hrun⟩ hs
    obtain ⟨ks, hk, hrun'⟩ := R.step s i s' hr hs
    exact ⟨t, ht, by rw [hk]; exact hrun.append hrun'⟩

end Refinement

/-! ## Counting threads -/

section Threads

variable {Tid Pc : Type*} [Fintype Tid] [DecidableEq Tid]

/-- How many threads stand at a control point that satisfies `p`. -/
def holding (p : Pc → Bool) (pc : Tid → Pc) : ℕ :=
  (Finset.univ.filter fun t => p (pc t) = true).card

/-- Moving one thread from `pc t` to `c` changes the count by what the two points count. -/
theorem holding_update (p : Pc → Bool) (pc : Tid → Pc) (t : Tid) (c : Pc) :
    holding p (Function.update pc t c) + (p (pc t)).toNat = holding p pc + (p c).toNat := by
  have hrest : (Finset.univ.erase t).filter (fun u => p (Function.update pc t c u) = true) =
      (Finset.univ.erase t).filter (fun u => p (pc u) = true) := by
    refine Finset.filter_congr fun u hu => ?_
    rw [Function.update_of_ne (Finset.ne_of_mem_erase hu)]
  have hsplit : ∀ f : Tid → Pc, holding p f =
      (p (f t)).toNat + ((Finset.univ.erase t).filter fun u => p (f u) = true).card := by
    intro f
    unfold holding
    rw [← Finset.insert_erase (Finset.mem_univ t), Finset.filter_insert]
    cases p (f t) <;> simp [Nat.add_comm]
  rw [hsplit, hsplit pc, hrest, Function.update_self]
  omega

theorem holding_eq_zero_iff {p : Pc → Bool} {pc : Tid → Pc} :
    holding p pc = 0 ↔ ∀ t, p (pc t) = false := by
  simp [holding, Finset.filter_eq_empty_iff]

/-- The sum over the threads of what their control points weigh. -/
def weight (w : Pc → ℕ) (pc : Tid → Pc) : ℕ :=
  ∑ t, w (pc t)

/-- Moving one thread from `pc t` to `c` changes the weight by what the two points weigh. -/
theorem weight_update (w : Pc → ℕ) (pc : Tid → Pc) (t : Tid) (c : Pc) :
    weight w (Function.update pc t c) + w (pc t) = weight w pc + w c := by
  have hrest : ∑ u ∈ Finset.univ.erase t, w (Function.update pc t c u) =
      ∑ u ∈ Finset.univ.erase t, w (pc u) := by
    refine Finset.sum_congr rfl fun u hu => ?_
    rw [Function.update_of_ne (Finset.ne_of_mem_erase hu)]
  unfold weight
  rw [← Finset.add_sum_erase _ _ (Finset.mem_univ t), hrest, Function.update_self,
    ← Finset.add_sum_erase Finset.univ (fun u => w (pc u)) (Finset.mem_univ t)]
  omega

theorem weight_le_card {w : Pc → ℕ} {k : ℕ} (hw : ∀ c, w c ≤ k) (pc : Tid → Pc) :
    weight w pc ≤ k * Fintype.card Tid := by
  calc weight w pc ≤ ∑ _t : Tid, k := Finset.sum_le_sum fun t _ => hw (pc t)
    _ = k * Fintype.card Tid := by
      rw [Finset.sum_const_nat fun _ _ => rfl, Nat.mul_comm]
      rfl

end Threads

end Transitions
