import Obcsw.CommandHandler
import Obcsw.CommandQueue

/-!
# The drain loop

`while (auto cmd = cmd_queue.tryPop())` with its dispatch, over any variables `σ` : the
callbacks of a table may capture what they like, as long as the loop finds its queue in a part
of `σ` (`QueueIn`). One round pops the front command and serves it (`drain_of_cons`), and an
empty queue ends the loop (`drain_of_nil`).
-/

set_option linter.unusedSectionVars false

open Exceptions Program

namespace Obcsw

/-- A line that ends with the sequence number. -/
def Main.seqLine (text : String) (cmd : Command) : Bytes :=
  bytes (text ++ toString cmd.sequence_number.toNat ++ "\n")

namespace CommandDrain

/-- Where the variables `σ` hold the command queue. -/
structure QueueIn (σ : Type) (m_max_depth : UInt32) where
  get : σ → CommandQueue m_max_depth
  set : σ → CommandQueue m_max_depth → σ
  get_set : ∀ w q, get (set w q) = q

section DrainLoop

variable {σ : Type} {m_max_depth : UInt32} (Q : QueueIn σ m_max_depth)

/-! ## The code -/

/-- The commands in the queue. -/
def QueueIn.commands (w : σ) : List Command :=
  (Q.get w).m_queue

/-- The variables after a `tryPop`. -/
def QueueIn.popped (w : σ) : σ :=
  Q.set w (Q.get w).tryPop.2

/-- Dispatch one command and report a failure. -/
def serve (handler : CommandHandler σ) (cmd : Command) : Obc σ PUnit := do
  emit (.dispatch cmd)
  let result ← handler.dispatch cmd
  if result ≠ .SUCCESS then
    emit (.cerr (Main.seqLine "[CMD ] Dispatch failed for seq=" cmd))

/-- `while (auto cmd = cmd_queue.tryPop())`, for at most `n` rounds. -/
def drain (handler : CommandHandler σ) : ℕ → Obc σ PUnit
  | 0 => return
  | n + 1 => do
    let w ← getState
    match (Q.get w).tryPop with
    | (none, _) => return
    | (some cmd, cmd_queue) =>
      update fun w => Q.set w cmd_queue
      serve handler cmd
      drain handler n

/-- Drain the command queue, with one round more than it has commands. -/
def drainQueue (handler : CommandHandler σ) : Obc σ PUnit := do
  let w ← getState
  drain Q handler ((Q.commands w).length + 1)

/-! ## One round -/

variable {Q} {H : CommandHandler σ} {w : σ}

/-- Draining an empty queue does nothing. -/
theorem drain_of_nil (hq : Q.commands w = []) : ∀ n, (drain Q H n).run w = ⟨[], w, .ok ⟨⟩⟩
  | 0 => rfl
  | n + 1 => by
    rw [drain, bind_run, getState_run, Outcome.andThen_ok, (Q.get w).tryPop_of_nil hq]
    rfl

/-- Draining a queue serves its front command, and goes on with the rest. -/
theorem drain_of_cons {cmd : Command} {rest : List Command} (hq : Q.commands w = cmd :: rest)
    (n : ℕ) : (drain Q H (n + 1)).run w =
      ((serve H cmd).run (Q.popped w)).andThen fun _ => drain Q H n := by
  have hitem := ((Q.get w).tryPop_of_cons hq).1
  unfold QueueIn.popped
  rcases htry : (Q.get w).tryPop with ⟨item, q⟩
  rw [htry] at hitem
  simp only at hitem
  subst hitem
  rw [drain, bind_run, getState_run, Outcome.andThen_ok, htry]
  simp only [bind_run, update_run, Outcome.andThen_ok, Outcome.after_nil]

theorem commands_popped {cmd : Command} {rest : List Command}
    (hq : Q.commands w = cmd :: rest) : Q.commands (Q.popped w) = rest := by
  rw [QueueIn.commands, QueueIn.popped, Q.get_set]
  exact ((Q.get w).tryPop_of_cons hq).2

end DrainLoop

end CommandDrain

end Obcsw
