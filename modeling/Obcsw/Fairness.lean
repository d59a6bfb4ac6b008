import Mathlib.Data.Countable.Basic
import Mathlib.Data.Nat.Pairing
import Obcsw.Transitions

/-!
# Fair runs

An infinite run of a labelled transition system, and weak fairness : a kind of step that can be
taken from some point on is taken again. Safety says what no run does; what a run is bound to do
follows from a rank and from the kind of step that helps (`InfiniteRun.reaches`) : off the goal,
no step raises the rank, a helpful step lowers it, any other step keeps the rank and which kind
helps or lowers the rank as well, and a helpful step can be taken. Then a run that is fair to
every kind reaches the goal. Where a step can always be taken there are runs fair to countably
many kinds (`exists_fair`).
-/

set_option linter.unusedSectionVars false

namespace Transitions

variable {σ ι : Type*}

/-- A run without end, with its labels. -/
structure InfiniteRun (T : Transitions σ ι) where
  state : ℕ → σ
  label : ℕ → ι
  step : ∀ n, T.step (state n) (label n) (state (n + 1))

/-- A step with a label of the kind can be taken. -/
def Enabled (T : Transitions σ ι) (kind : ι → Prop) (s : σ) : Prop :=
  ∃ i s', kind i ∧ T.step s i s'

namespace InfiniteRun

variable {T : Transitions σ ι} (r : T.InfiniteRun)

/-- The run is fair to the kind. -/
def Fair (kind : ι → Prop) : Prop :=
  ∀ n, (∀ m ≥ n, T.Enabled kind (r.state m)) → ∃ m ≥ n, kind (r.label m)

/-- What holds at some point and is kept by every step of the run holds from there on. -/
theorem always {I : σ → Prop} (hstep : ∀ m, I (r.state m) → I (r.state (m + 1))) {n : ℕ}
    (hn : I (r.state n)) : ∀ m ≥ n, I (r.state m) := by
  intro m hm
  induction m, hm using Nat.le_induction with
  | base => exact hn
  | succ m _ ih => exact hstep m ih

section Rank

variable {κ : Type*} {kind : κ → ι → Prop} {I goal : σ → Prop} {rank : σ → ℕ} {helpful : σ → κ}

/-- A step off the goal reaches it, lowers the rank, or is not helpful and changes neither the
rank nor the kind that helps. -/
inductive Advances (kind : κ → ι → Prop) (I goal : σ → Prop) (rank : σ → ℕ) (helpful : σ → κ)
    (s : σ) (i : ι) (s' : σ) : Prop
  | done (h : goal s')
  | lower (hI : I s') (h : rank s' < rank s)
  | wait (hI : I s') (hrank : rank s' = rank s) (hsame : helpful s' = helpful s)
      (hi : ¬kind (helpful s) i)

/-- Short of the goal and of a lower rank, the rank stands still, and with it what helps. -/
theorem still (hstep : ∀ m, I (r.state m) → ¬goal (r.state m) →
      Advances kind I goal rank helpful (r.state m) (r.label m) (r.state (m + 1))) {n : ℕ}
    (hn : I (r.state n)) (hnever : ∀ m ≥ n, ¬goal (r.state m))
    (hlow : ∀ m ≥ n, I (r.state m) → rank (r.state n) ≤ rank (r.state m)) :
    ∀ m ≥ n, I (r.state m) ∧ rank (r.state m) = rank (r.state n) ∧
      helpful (r.state m) = helpful (r.state n) ∧ ¬kind (helpful (r.state n)) (r.label m) := by
  intro m hm
  induction m, hm using Nat.le_induction with
  | base =>
    rcases hstep n hn (hnever n le_rfl) with h | ⟨hI, h⟩ | ⟨-, -, -, hi⟩
    · exact absurd h (hnever (n + 1) n.le_succ)
    · exact absurd h (Nat.not_lt.mpr (hlow (n + 1) n.le_succ hI))
    · exact ⟨hn, rfl, rfl, hi⟩
  | succ m hm ih =>
    obtain ⟨hI, hrank, hhelp, -⟩ := ih
    have hm' : n ≤ m + 1 := Nat.le_succ_of_le hm
    rcases hstep m hI (hnever m hm) with h | ⟨hI', h⟩ | ⟨hI', hrank', hsame, -⟩
    · exact absurd h (hnever (m + 1) hm')
    · exact absurd (hrank ▸ h) (Nat.not_lt.mpr (hlow (m + 1) hm' hI'))
    · refine ⟨hI', hrank'.trans hrank, hsame.trans hhelp, ?_⟩
      rcases hstep (m + 1) hI' (hnever (m + 1) hm') with h | ⟨hI'', h⟩ | ⟨-, -, -, hi⟩
      · exact absurd h (hnever (m + 2) (Nat.le_succ_of_le hm'))
      · rw [hrank'.trans hrank] at h
        exact absurd h (Nat.not_lt.mpr (hlow (m + 2) (Nat.le_succ_of_le hm') hI''))
      · rwa [hsame.trans hhelp] at hi

/-- The rule of the helpful step. -/
theorem reaches (hfair : ∀ k, r.Fair (kind k))
    (hstep : ∀ m, I (r.state m) → ¬goal (r.state m) →
      Advances kind I goal rank helpful (r.state m) (r.label m) (r.state (m + 1)))
    (henabled : ∀ m, I (r.state m) → ¬goal (r.state m) →
      T.Enabled (kind (helpful (r.state m))) (r.state m)) {n : ℕ} (hn : I (r.state n)) :
    ∃ m ≥ n, goal (r.state m) := by
  induction hrank : rank (r.state n) using Nat.strong_induction_on generalizing n with
  | _ k ih =>
    subst hrank
    by_contra hnever
    push Not at hnever
    have hlow : ∀ m ≥ n, I (r.state m) → rank (r.state n) ≤ rank (r.state m) := by
      intro m hm hI
      by_contra hlt
      obtain ⟨m', hm', hgoal⟩ := ih _ (Nat.not_le.mp hlt) hI rfl
      exact hnever m' (hm.trans hm') hgoal
    have hstill := r.still hstep hn hnever hlow
    obtain ⟨m, hm, hkind⟩ := hfair (helpful (r.state n)) n fun m hm => by
      obtain ⟨hI, -, hhelp, -⟩ := hstill m hm
      rw [← hhelp]
      exact henabled m hI (hnever m hm)
    exact (hstill m hm).2.2.2 hkind

end Rank

end InfiniteRun

/-- Where a step with an allowed label can always be taken, and all of them keep `I`, there is a
run of such steps that is fair to every kind. -/
theorem exists_fair {T : Transitions σ ι} {κ : Type*} [Countable κ] [Nonempty κ]
    {kind : κ → ι → Prop} {I : σ → Prop} {P : ι → Prop} (hkind : ∀ k i, kind k i → P i)
    (hkeep : ∀ s i s', P i → I s → T.step s i s' → I s') (hlive : ∀ s, I s → T.Enabled P s)
    {s : σ} (hs : I s) : ∃ r : T.InfiniteRun, r.state 0 = s ∧
      (∀ n, P (r.label n) ∧ I (r.state n)) ∧ ∀ k, r.Fair (kind k) := by
  obtain ⟨f, hf⟩ := exists_surjective_nat κ
  -- At its turn a kind moves, if it can. The pairing gives every kind a turn after any point.
  have hturn : ∀ (n : ℕ) (s : Subtype I), ∃ (i : ι) (s' : Subtype I), P i ∧
      T.step s.1 i s'.1 ∧ (T.Enabled (kind (f n.unpair.1)) s.1 → kind (f n.unpair.1) i) := by
    intro n s
    by_cases hen : T.Enabled (kind (f n.unpair.1)) s.1
    · obtain ⟨i, s', hi, hstep⟩ := hen
      have hP := hkind _ i hi
      exact ⟨i, ⟨s', hkeep _ _ _ hP s.2 hstep⟩, hP, hstep, fun _ => hi⟩
    · obtain ⟨i, s', hP, hstep⟩ := hlive s.1 s.2
      exact ⟨i, ⟨s', hkeep _ _ _ hP s.2 hstep⟩, hP, hstep, fun h => absurd h hen⟩
  choose label succ hP hstep hmoves using hturn
  let state : ℕ → Subtype I := Nat.rec ⟨s, hs⟩ succ
  refine ⟨⟨fun n => (state n).1, fun n => label n (state n), fun n => hstep n (state n)⟩, rfl,
    fun n => ⟨hP n (state n), (state n).2⟩, fun k n hen => ?_⟩
  obtain ⟨j, rfl⟩ := hf k
  have hmove := hmoves (Nat.pair j n) (state (Nat.pair j n))
  rw [Nat.unpair_pair] at hmove
  exact ⟨Nat.pair j n, Nat.right_le_pair j n, hmove (hen _ (Nat.right_le_pair j n))⟩

end Transitions
