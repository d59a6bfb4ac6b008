import Obcsw.Transitions

/-!
# The bounded FIFO queue

The sequential object : a list of at most `cap` items, `put` at the back and `take` from
the front. `put` refuses an item when the queue is full and then changes nothing; `take`
answers none when the queue is empty.

`Event` is an operation with the result it gave, and `fifo cap` the transition system whose
labels are events. A history of events is one of the sequential queue when it is a run of
`fifo cap` from the empty list.

* `Applies.put_iff`, `Applies.take_iff`, `Applies.isEmpty_iff`, `Applies.size_iff` : what one
  event says about the contents before and after it.
* `run_accepted` : along a run, the items accepted are the items taken followed by what the
  queue still holds, in order.
* `run_put_iff`, `run_take` : the answer of an operation, from the history before it.
* `run_refused` : the first `cap` items are accepted.
-/

namespace BoundedFifo

variable {α : Type*}

/-- Put an item at the back, unless there are `cap` items. -/
def put (cap : ℕ) (q : List α) (x : α) : Bool × List α :=
  if q.length < cap then (true, q ++ [x]) else (false, q)

/-- Take the item at the front. -/
def take : List α → Option α × List α
  | [] => (none, [])
  | x :: q => (some x, q)

/-- An operation with its result. -/
inductive Event (α : Type*)
  | put (x : α) (accepted : Bool)
  | take (item : Option α)
  | isEmpty (answer : Bool)
  | size (answer : ℕ)

/-- The event is one the queue can give at `q`, and leaves `q'`. -/
inductive Applies (cap : ℕ) : List α → Event α → List α → Prop
  | put (q : List α) (x : α) : Applies cap q (.put x (put cap q x).1) (put cap q x).2
  | take (q : List α) : Applies cap q (.take (take q).1) (take q).2
  | isEmpty (q : List α) : Applies cap q (.isEmpty q.isEmpty) q
  | size (q : List α) : Applies cap q (.size q.length) q

/-- The sequential queue of capacity `cap`, initially empty. -/
def fifo (α : Type*) (cap : ℕ) : Transitions (List α) (Event α) where
  initial q := q = []
  step := Applies cap

variable {cap : ℕ} {q q' : List α}

theorem put_of_lt (x : α) (h : q.length < cap) : put cap q x = (true, q ++ [x]) :=
  if_pos h

theorem put_of_le (x : α) (h : cap ≤ q.length) : put cap q x = (false, q) :=
  if_neg (Nat.not_lt.mpr h)

/-- What a `put` event says. -/
theorem Applies.put_iff {x : α} {ok : Bool} : Applies cap q (.put x ok) q' ↔
    (q.length < cap ∧ ok = true ∧ q' = q ++ [x]) ∨ (cap ≤ q.length ∧ ok = false ∧ q' = q) := by
  constructor
  · rintro ⟨⟩
    rcases Nat.lt_or_ge q.length cap with h | h
    · exact Or.inl ⟨h, by rw [put_of_lt x h], by rw [put_of_lt x h]⟩
    · exact Or.inr ⟨h, by rw [put_of_le x h], by rw [put_of_le x h]⟩
  · have hput : Applies cap q (.put x (BoundedFifo.put cap q x).1) (BoundedFifo.put cap q x).2 :=
      Applies.put q x
    rintro (⟨h, rfl, rfl⟩ | ⟨h, rfl, rfl⟩)
    · rwa [put_of_lt x h] at hput
    · rwa [put_of_le x h] at hput

/-- What a `take` event says. -/
theorem Applies.take_iff {item : Option α} : Applies cap q (.take item) q' ↔
    (q = [] ∧ item = none ∧ q' = []) ∨ ∃ x, item = some x ∧ q = x :: q' := by
  constructor
  · rintro ⟨⟩
    cases q with
    | nil => exact Or.inl ⟨rfl, rfl, rfl⟩
    | cons x q => exact Or.inr ⟨x, rfl, rfl⟩
  · rintro (⟨rfl, rfl, rfl⟩ | ⟨x, rfl, rfl⟩)
    · exact Applies.take []
    · exact Applies.take (x :: q')

/-- What an `isEmpty` event says. -/
theorem Applies.isEmpty_iff {answer : Bool} :
    Applies cap q (.isEmpty answer) q' ↔ answer = q.isEmpty ∧ q' = q := by
  constructor
  · rintro ⟨⟩
    exact ⟨rfl, rfl⟩
  · rintro ⟨rfl, rfl⟩
    exact Applies.isEmpty q'

/-- What a `size` event says. -/
theorem Applies.size_iff {answer : ℕ} :
    Applies cap q (.size answer) q' ↔ answer = q.length ∧ q' = q := by
  constructor
  · rintro ⟨⟩
    exact ⟨rfl, rfl⟩
  · rintro ⟨rfl, rfl⟩
    exact Applies.size q'

/-! ## Histories -/

/-- The items of the `put` events that were accepted. -/
def accepted (h : List (Event α)) : List α :=
  h.filterMap fun
    | .put x true => some x
    | _ => none

/-- The items of the `take` events that gave one. -/
def taken (h : List (Event α)) : List α :=
  h.filterMap fun
    | .take item => item
    | _ => none

/-- The answers of the `put` events. -/
def answers (h : List (Event α)) : List Bool :=
  h.filterMap fun
    | .put _ accepted => some accepted
    | _ => none

@[simp] theorem accepted_nil : accepted ([] : List (Event α)) = [] :=
  rfl

@[simp] theorem taken_nil : taken ([] : List (Event α)) = [] :=
  rfl

theorem accepted_append (h h' : List (Event α)) :
    accepted (h ++ h') = accepted h ++ accepted h' :=
  List.filterMap_append

theorem taken_append (h h' : List (Event α)) : taken (h ++ h') = taken h ++ taken h' :=
  List.filterMap_append

theorem answers_append (h h' : List (Event α)) : answers (h ++ h') = answers h ++ answers h' :=
  List.filterMap_append

/-- As many items are accepted as answers are true. -/
theorem count_answers (h : List (Event α)) : (answers h).count true = (accepted h).length := by
  induction h with
  | nil => rfl
  | cons e h ih =>
    rw [← List.singleton_append, answers_append, accepted_append, List.count_append, ih,
      List.length_append]
    cases e with
    | put x ok => cases ok <;> rfl
    | _ => rfl

/-- One event moves an item from outside to the back, or from the front to outside. -/
theorem Applies.accepted_eq {e : Event α} (h : Applies cap q e q') :
    q ++ accepted [e] = taken [e] ++ q' := by
  cases e with
  | put x ok =>
    rcases Applies.put_iff.mp h with ⟨-, rfl, rfl⟩ | ⟨-, rfl, rfl⟩ <;> simp [accepted, taken]
  | take item =>
    rcases Applies.take_iff.mp h with ⟨rfl, rfl, rfl⟩ | ⟨x, rfl, rfl⟩ <;> simp [accepted, taken]
  | isEmpty answer =>
    cases h
    simp [accepted, taken]
  | size answer =>
    cases h
    simp [accepted, taken]

/-- Along a run, what was in the queue followed by the items accepted is the items taken
followed by what is in the queue. -/
theorem run_accepted {h : List (Event α)} (hr : (fifo α cap).Run q h q') :
    q ++ accepted h = taken h ++ q' := by
  induction hr with
  | nil q => simp
  | @cons q q₁ q' e es he _ ih =>
    have hone : q ++ accepted [e] = taken [e] ++ q₁ := Applies.accepted_eq he
    calc q ++ accepted (e :: es) = q ++ accepted [e] ++ accepted es := by
          rw [← List.singleton_append, accepted_append, List.append_assoc]
      _ = taken [e] ++ (q₁ ++ accepted es) := by rw [hone, List.append_assoc]
      _ = taken (e :: es) ++ q' := by
          rw [ih, ← List.append_assoc, ← taken_append, List.singleton_append]

/-- One event keeps the bound on the length. -/
theorem Applies.length_le {e : Event α} (h : Applies cap q e q') (hq : q.length ≤ cap) :
    q'.length ≤ cap := by
  cases e with
  | put x ok =>
    rcases Applies.put_iff.mp h with ⟨hlt, -, rfl⟩ | ⟨-, -, rfl⟩
    · rw [List.length_append]
      exact hlt
    · exact hq
  | take item =>
    rcases Applies.take_iff.mp h with ⟨-, -, rfl⟩ | ⟨x, -, rfl⟩
    · exact Nat.zero_le _
    · exact Nat.le_of_succ_le hq
  | isEmpty answer =>
    cases h
    exact hq
  | size answer =>
    cases h
    exact hq

theorem run_length_le {h : List (Event α)} (hr : (fifo α cap).Run q h q') (hq : q.length ≤ cap) :
    q'.length ≤ cap :=
  hr.induct (I := fun q => q.length ≤ cap) (P := fun _ => True)
    (fun _ _ _ _ hq he => Applies.length_le he hq) (fun _ _ => trivial) hq

/-- The history before an operation says how many items the queue holds. -/
theorem run_balance {h : List (Event α)} (hr : (fifo α cap).Run [] h q) :
    (accepted h).length = (taken h).length + q.length ∧ q.length ≤ cap := by
  have hconserved := run_accepted hr
  rw [List.nil_append] at hconserved
  exact ⟨by rw [hconserved, List.length_append], run_length_le hr (Nat.zero_le _)⟩

/-- A queue without room accepts nothing. -/
theorem run_accepted_of_zero {h : List (Event α)} (hr : (fifo α 0).Run q h q') :
    accepted h = [] := by
  induction hr with
  | nil q => rfl
  | @cons q q₁ q' e es he _ ih =>
    rw [← List.singleton_append, accepted_append, ih, List.append_nil]
    cases he with
    | put x =>
      rw [put_of_le x (Nat.zero_le _)]
      rfl
    | _ => rfl

/-- No item is refused before `cap` items have been put. -/
theorem run_refused {h : List (Event α)} (hr : (fifo α cap).Run [] h q) {n : ℕ}
    (hn : (answers h)[n]? = some false) : cap ≤ n := by
  have hrun : (fifo α cap).Run [] h q ∧ ∀ n, (answers h)[n]? = some false → cap ≤ n := by
    refine hr.trace_induct (I := fun h q => (fifo α cap).Run [] h q ∧
      ∀ n, (answers h)[n]? = some false → cap ≤ n) (Transitions.reachable_of_initial rfl)
      ⟨.nil [], fun n hn => ?_⟩ fun h q e q' _ ⟨hr, ih⟩ he => ⟨hr.append (.single he), ?_⟩
    · cases hn
    · intro n hn
      rw [answers_append] at hn
      rcases Nat.lt_or_ge n (answers h).length with hlt | hge
      · rw [List.getElem?_append_left hlt] at hn
        exact ih n hn
      · rw [List.getElem?_append_right hge] at hn
        -- The event is the refusal of an item by the full queue.
        have hfull : cap ≤ q.length := by
          cases e with
          | put x ok =>
            obtain rfl : ok = false := by
              have hmem := List.mem_of_getElem? hn
              exact (List.mem_singleton.mp hmem).symm
            rcases Applies.put_iff.mp he with ⟨-, hno, -⟩ | ⟨hle, -, -⟩
            · cases hno
            · exact hle
          | _ => cases List.mem_of_getElem? hn
        have hbalance := (run_balance hr).1
        rw [← count_answers] at hbalance
        have hcount : (answers h).count true ≤ (answers h).length := List.count_le_length
        omega
  exact hrun.2 n hn

section Split

variable {h h' : List (Event α)} {x : α} {ok : Bool}

/-- A `put` is refused exactly when `cap` more items have been accepted than taken. -/
theorem run_put_iff (hr : (fifo α cap).Run [] (h ++ .put x ok :: h') q) :
    ok = false ↔ (accepted h).length = (taken h).length + cap := by
  obtain ⟨q₁, q₂, hbefore, hput, -⟩ := Transitions.run_split_iff.mp hr
  obtain ⟨hbalance, hbound⟩ := run_balance hbefore
  rcases Applies.put_iff.mp hput with ⟨hlt, rfl, -⟩ | ⟨hle, rfl, -⟩
  · exact iff_of_false Bool.noConfusion (by omega)
  · exact iff_of_true rfl (by omega)

/-- The item taken is the first of the accepted ones that has not been taken before. -/
theorem run_take (hr : (fifo α cap).Run [] (h ++ .take (some x) :: h') q) :
    (accepted h)[(taken h).length]? = some x := by
  obtain ⟨q₁, q₂, hbefore, htake, -⟩ := Transitions.run_split_iff.mp hr
  have hconserved := run_accepted hbefore
  rcases Applies.take_iff.mp htake with ⟨-, hnone, -⟩ | ⟨y, hy, hq₁⟩
  · cases hnone
  · obtain rfl := Option.some.inj hy
    rw [List.nil_append, hq₁] at hconserved
    rw [hconserved, List.getElem?_append_right (Nat.le_refl _), Nat.sub_self,
      List.getElem?_cons_zero]

end Split

end BoundedFifo
