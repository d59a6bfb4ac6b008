import Obcsw.CommandDeserializer

/-!
# CommandQueue

The part of each `CommandQueue` method that runs with the mutex held. The depth is a
constant of the object, so it is a parameter of the type, and the bound on the length is a
field : every method keeps it.
-/

namespace Obcsw

/-- The state behind the mutex. -/
structure CommandQueue (m_max_depth : UInt32) where
  m_queue : List Command
  bound : m_queue.length ≤ m_max_depth.toNat

namespace CommandQueue

variable {m_max_depth : UInt32}

/-- A new queue. -/
def init (m_max_depth : UInt32) : CommandQueue m_max_depth :=
  ⟨[], Nat.zero_le _⟩

/-- Push a command; false, and nothing changes, when the queue is full. -/
def push (q : CommandQueue m_max_depth) (cmd : Command) : Bool × CommandQueue m_max_depth :=
  if h : q.m_queue.length ≥ m_max_depth.toNat then (false, q)
  else (true, ⟨q.m_queue ++ [cmd], by rw [List.length_append]; exact Nat.lt_of_not_ge h⟩)

/-- Pop the front command; none when the queue is empty. -/
def tryPop (q : CommandQueue m_max_depth) : Option Command × CommandQueue m_max_depth :=
  match h : q.m_queue with
  | [] => (none, q)
  | cmd :: rest => (some cmd, ⟨rest, by have := q.bound; rw [h] at this; exact Nat.le_of_lt this⟩)

def empty (q : CommandQueue m_max_depth) : Bool :=
  q.m_queue.isEmpty

/-- The length, cast to 32 bits. -/
def size (q : CommandQueue m_max_depth) : UInt32 :=
  UInt32.ofNat q.m_queue.length

variable (q : CommandQueue m_max_depth)

theorem push_of_lt (cmd : Command) (h : q.m_queue.length < m_max_depth.toNat) :
    (q.push cmd).1 = true ∧ (q.push cmd).2.m_queue = q.m_queue ++ [cmd] := by
  unfold push
  rw [dif_neg (Nat.not_le.mpr h)]
  exact ⟨rfl, rfl⟩

theorem push_of_full (cmd : Command) (h : q.m_queue.length = m_max_depth.toNat) :
    q.push cmd = (false, q) :=
  dif_pos (Nat.le_of_eq h.symm)

/-- Pushing appends, and cuts the queue at its depth. -/
theorem push_queue (cmd : Command) :
    (q.push cmd).2.m_queue = (q.m_queue ++ [cmd]).take m_max_depth.toNat := by
  rcases Nat.lt_or_ge q.m_queue.length m_max_depth.toNat with h | h
  · rw [(q.push_of_lt cmd h).2, List.take_of_length_le (by rw [List.length_append]; exact h)]
  · have hlen := Nat.le_antisymm q.bound h
    rw [q.push_of_full cmd hlen, List.take_left' hlen]

theorem tryPop_of_nil (h : q.m_queue = []) : q.tryPop = (none, q) := by
  unfold tryPop
  split
  · rfl
  · next hq => rw [h] at hq; cases hq

theorem tryPop_of_cons {cmd : Command} {rest : List Command} (h : q.m_queue = cmd :: rest) :
    q.tryPop.1 = some cmd ∧ q.tryPop.2.m_queue = rest := by
  unfold tryPop
  split
  · next hq => rw [h] at hq; cases hq
  · next hq =>
    rw [h] at hq
    cases hq
    exact ⟨rfl, rfl⟩

/-- The cast never truncates. -/
theorem size_toNat : q.size.toNat = q.m_queue.length := by
  unfold size
  rw [UInt32.toNat_ofNat']
  exact Nat.mod_eq_of_lt (Nat.lt_of_le_of_lt q.bound m_max_depth.toNat_lt)

end CommandQueue

end Obcsw
