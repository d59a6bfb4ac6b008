import Mathlib.Data.List.Forall2
import Obcsw.MainLoop

/-!
# Draining the command queue

What the drain loop does with a table of callbacks, over any variables that hold the queue.
The table is a history of registrations (`table`), and a callback is the one registered last
for its opcode (`latest`). When the callbacks return and leave the queue as it is, the loop
handles the commands it finds one by one (`Executes`), and what a callback answers does not
reach the handling of a later command (`drainsQueue`). The loop of `main` is the one over
`MainState` (`mainQueue`).
-/

set_option linter.unusedSectionVars false

open Exceptions Program

namespace Obcsw

namespace CommandDrain

/-! ## Registrations -/

/-- A call `registerHandler(opcode, callback)` with a non-empty callback. -/
structure Registration (σ : Type) where
  opcode : Opcode
  callback : Command → Obc σ CommandResult

section Registrations

variable {σ : Type} {m_max_depth : UInt32}

/-- The table after some registrations. -/
def table (regs : List (Registration σ)) : CommandHandler σ :=
  regs.foldl (fun handler reg => handler.registerHandler reg.opcode (some reg.callback)) {}

/-- The callback registered last for the opcode. -/
def latest (regs : List (Registration σ)) (opcode : Opcode) :
    Option (Command → Obc σ CommandResult) :=
  (regs.reverse.find? fun reg => reg.opcode = opcode).map Registration.callback

/-- The table holds the callback registered last, for each opcode. -/
theorem table_latest (regs : List (Registration σ)) (opcode : Opcode) :
    (table regs).m_handlers opcode.toByte = (latest regs opcode).map some := by
  induction regs using List.reverseRecOn with
  | nil => rfl
  | append_singleton regs reg ih =>
    unfold table latest
    rw [List.foldl_append, List.foldl_cons, List.foldl_nil, List.reverse_append,
      List.reverse_singleton, List.singleton_append, List.find?_cons]
    by_cases hop : reg.opcode = opcode
    · subst hop
      rw [CommandHandler.registerHandler_self, decide_eq_true rfl]
      rfl
    · have hbyte : opcode.toByte ≠ reg.opcode.toByte :=
        fun h => hop (Opcode.toByte_injective h).symm
      rw [CommandHandler.registerHandler_of_ne _ _ hbyte, decide_eq_false hop]
      exact ih

theorem mem_of_latest {regs : List (Registration σ)} {opcode : Opcode}
    {f : Command → Obc σ CommandResult} (h : latest regs opcode = some f) :
    ∃ reg ∈ regs, reg.callback = f := by
  obtain ⟨reg, hreg, hf⟩ := Option.map_eq_some_iff.mp h
  exact ⟨reg, List.mem_reverse.mp (List.mem_of_find?_eq_some hreg), hf⟩

/-- The callback returns, and leaves the queue as it is. -/
def Registration.Quiet (Q : QueueIn σ m_max_depth) (reg : Registration σ) : Prop :=
  ∀ cmd w, ∃ es r w', (reg.callback cmd).Returns w es r w' ∧ Q.get w' = Q.get w

/-- The callback of `reg'` does what the one of `reg` does, and may answer something else. -/
def Registration.SameEffects (reg reg' : Registration σ) : Prop :=
  reg'.opcode = reg.opcode ∧ ∀ cmd w es r w', (reg.callback cmd).Returns w es r w' →
    ∃ r', (reg'.callback cmd).Returns w es r' w'

theorem find?_sameEffects {regs regs' : List (Registration σ)} (opcode : Opcode)
    (h : List.Forall₂ Registration.SameEffects regs regs') :
    Option.Rel Registration.SameEffects (regs.find? fun reg => reg.opcode = opcode)
      (regs'.find? fun reg => reg.opcode = opcode) := by
  induction h with
  | nil => exact .none
  | @cons reg reg' regs regs' hreg _ ih =>
    rw [List.find?_cons, List.find?_cons, hreg.1]
    by_cases hop : reg.opcode = opcode
    · rw [decide_eq_true hop]
      exact .some hreg
    · rw [decide_eq_false hop]
      exact ih

/-- Histories with the same effects have callbacks for the same opcodes, with the same
effects. -/
theorem latest_sameEffects {regs regs' : List (Registration σ)} (opcode : Opcode)
    (h : List.Forall₂ Registration.SameEffects regs regs') :
    (latest regs opcode = none ∧ latest regs' opcode = none) ∨
      ∃ f f', latest regs opcode = some f ∧ latest regs' opcode = some f' ∧
        ∀ cmd w es r w', (f cmd).Returns w es r w' → ∃ r', (f' cmd).Returns w es r' w' := by
  have hfind := find?_sameEffects opcode (List.forall₂_reverse_iff.mpr h)
  unfold latest
  generalize regs.reverse.find? (fun reg => reg.opcode = opcode) = o at hfind ⊢
  generalize regs'.reverse.find? (fun reg => reg.opcode = opcode) = o' at hfind ⊢
  cases hfind with
  | none => exact Or.inl ⟨rfl, rfl⟩
  | some hsame => exact Or.inr ⟨_, _, rfl, rfl, hsame.2⟩

end Registrations

/-! ## Handling one command -/

/-- What the loop does with one command. -/
structure Handling (σ : Type) where
  cmd : Command
  /-- The callback invoked, with the events of its run. -/
  invoked : Option ((Command → Obc σ CommandResult) × List Event)
  result : CommandResult
  /-- The variables it leaves. -/
  after : σ

/-- The invocation, of a callback with a command. -/
def Handling.invocation {σ : Type} (h : Handling σ) :
    Option ((Command → Obc σ CommandResult) × Command) :=
  h.invoked.map fun p => (p.1, h.cmd)

/-- The events of the dispatch. -/
def Handling.reply {σ : Type} (h : Handling σ) : List Event :=
  match h.invoked with
  | none => [.cerr (bytes ("[CommandHandler] No handler registered for opcode "
      ++ CommandDeserializer.opcodeName h.cmd.opcode ++ "\n"))]
  | some (_, es) => .invoke h.cmd.opcode.toByte h.cmd :: es

/-- The events of a round. -/
def Handling.output {σ : Type} (h : Handling σ) : List Event :=
  .dispatch h.cmd :: h.reply ++
    if h.result ≠ .SUCCESS then
      [.cerr (Main.seqLine "[CMD ] Dispatch failed for seq=" h.cmd)]
    else []

/-- The two handlings differ in the callback's answer only. -/
def Handling.SameButResult {σ : Type} (h h' : Handling σ) : Prop :=
  h'.cmd = h.cmd ∧ h'.invoked.map Prod.snd = h.invoked.map Prod.snd ∧ h'.after = h.after

/-- The command is handled from the variables `w` as the registrations say : by the callback
registered last for its opcode, and by a rejection when there is none. -/
inductive Handles {σ : Type} (regs : List (Registration σ)) (cmd : Command) (w : σ) :
    Handling σ → Prop
  | invoked {f es r w'} (hf : latest regs cmd.opcode = some f)
      (hrun : (f cmd).Returns w es r w') : Handles regs cmd w ⟨cmd, some (f, es), r, w'⟩
  | rejected (hnone : latest regs cmd.opcode = none) :
      Handles regs cmd w ⟨cmd, none, .REJECTED, w⟩

section Handling

variable {σ : Type} {m_max_depth : UInt32} {Q : QueueIn σ m_max_depth}
  {regs regs' : List (Registration σ)} {cmd : Command} {w : σ} {h : Handling σ}

theorem Handles.cmd_eq (hh : Handles regs cmd w h) : h.cmd = cmd := by
  cases hh <;> rfl

/-- The table dispatches a command as it is handled. -/
theorem Handles.dispatch_returns (hh : Handles regs cmd w h) :
    ((table regs).dispatch cmd).Returns w h.reply h.result h.after := by
  have hentry := table_latest regs cmd.opcode
  unfold Prog.Returns CommandHandler.dispatch
  rw [hentry]
  cases hh with
  | invoked hf hrun =>
    rw [hf]
    simp only [Option.map_some, CommandHandler.call, bind_run, emit_run, Outcome.andThen_ok]
    rw [hrun]
    rfl
  | rejected hnone =>
    rw [hnone]
    rfl

/-- A round is the handling of its command. -/
theorem Handles.serve_returns (hh : Handles regs cmd w h) :
    (serve (table regs) cmd).Returns w h.output ⟨⟩ h.after := by
  unfold Prog.Returns serve Handling.output
  rw [hh.cmd_eq]
  simp only [bind_run, emit_run, Outcome.andThen_ok]
  rw [hh.dispatch_returns, Outcome.andThen_ok]
  split
  · rfl
  · rw [List.append_nil, pure_run, Outcome.after_mk, Outcome.after_mk, List.append_nil]
    rfl

theorem Handles.invocation_eq (hh : Handles regs cmd w h) :
    h.invocation = (latest regs cmd.opcode).map (·, cmd) := by
  cases hh with
  | invoked hf _ => rw [hf]; rfl
  | rejected hnone => rw [hnone]; rfl

/-- Quiet callbacks handle every command. -/
theorem handles_of_quiet (hregs : ∀ reg ∈ regs, reg.Quiet Q) (cmd : Command) (w : σ) :
    ∃ h, Handles regs cmd w h ∧ Q.get h.after = Q.get w := by
  cases hf : latest regs cmd.opcode with
  | none => exact ⟨_, .rejected hf, rfl⟩
  | some f =>
    obtain ⟨reg, hreg, rfl⟩ := mem_of_latest hf
    obtain ⟨es, r, w', hrun, hq⟩ := hregs reg hreg cmd w
    exact ⟨_, .invoked hf hrun, hq⟩

/-- The handling of a command is determined. -/
theorem Handles.unique {h' : Handling σ} (hh : Handles regs cmd w h)
    (hh' : Handles regs cmd w h') : h = h' := by
  cases hh with
  | invoked hf hrun =>
    cases hh' with
    | invoked hf' hrun' =>
      obtain rfl := Option.some.inj (hf.symm.trans hf')
      have heq := hrun.symm.trans hrun'
      cases heq
      rfl
    | rejected hnone => rw [hf] at hnone; cases hnone
  | rejected hnone =>
    cases hh' with
    | invoked hf' _ => rw [hf'] at hnone; cases hnone
    | rejected _ => rfl

theorem Handles.get_eq (hregs : ∀ reg ∈ regs, reg.Quiet Q) (hh : Handles regs cmd w h) :
    Q.get h.after = Q.get w := by
  obtain ⟨h', hh', hq⟩ := handles_of_quiet hregs cmd w
  rw [hh.unique hh']
  exact hq

/-- Callbacks with the same effects handle a command alike. -/
theorem Handles.sameEffects (hregs : List.Forall₂ Registration.SameEffects regs regs')
    (hh : Handles regs cmd w h) : ∃ h', Handles regs' cmd w h' ∧ h.SameButResult h' := by
  have hlatest := latest_sameEffects cmd.opcode hregs
  cases hh with
  | invoked hg hrun =>
    rcases hlatest with ⟨hnone, -⟩ | ⟨f, f', hf, hf', hsame⟩
    · rw [hg] at hnone
      cases hnone
    · obtain rfl := Option.some.inj (hg.symm.trans hf)
      obtain ⟨r', hrun'⟩ := hsame _ _ _ _ _ hrun
      exact ⟨_, .invoked hf' hrun', rfl, rfl, rfl⟩
  | rejected hnone =>
    rcases hlatest with ⟨-, hnone'⟩ | ⟨f, f', hf, -⟩
    · exact ⟨_, .rejected hnone', rfl, rfl, rfl⟩
    · rw [hnone] at hf
      cases hf

end Handling

/-! ## Executing the queue -/

/-- The commands `cmds` are handled one by one from the variables `w`, each once it is popped. -/
inductive Executes {σ : Type} {m_max_depth : UInt32} (Q : QueueIn σ m_max_depth)
    (regs : List (Registration σ)) : List Command → σ → List (Handling σ) → Prop
  | nil {w} : Executes Q regs [] w []
  | cons {cmd rest w h hs} (hh : Handles regs cmd (Q.popped w) h)
      (hrest : Executes Q regs rest h.after hs) : Executes Q regs (cmd :: rest) w (h :: hs)

/-- The variables that the handlings leave. -/
def final {σ : Type} (w : σ) (hs : List (Handling σ)) : σ :=
  hs.foldl (fun _ h => h.after) w

theorem final_cons {σ : Type} (w : σ) (h : Handling σ) (hs : List (Handling σ)) :
    final w (h :: hs) = final h.after hs :=
  rfl

section Execution

variable {σ : Type} {m_max_depth : UInt32} {Q : QueueIn σ m_max_depth}
  {regs regs' : List (Registration σ)} {cmds : List Command} {w : σ} {hs : List (Handling σ)}

/-- One invocation for each command whose opcode has a registration, in order. -/
theorem Executes.invocations (hx : Executes Q regs cmds w hs) :
    hs.filterMap Handling.invocation =
      cmds.filterMap fun cmd => (latest regs cmd.opcode).map (·, cmd) := by
  induction hx with
  | nil => rfl
  | cons hh _ ih => rw [List.filterMap_cons, List.filterMap_cons, hh.invocation_eq, ih]

theorem Executes.sameEffects (hregs : List.Forall₂ Registration.SameEffects regs regs')
    (hx : Executes Q regs cmds w hs) : ∃ hs', Executes Q regs' cmds w hs' ∧
      List.Forall₂ Handling.SameButResult hs hs' ∧ final w hs' = final w hs := by
  induction hx with
  | nil => exact ⟨[], .nil, .nil, rfl⟩
  | cons hh _ ih =>
    obtain ⟨h', hh', hsame⟩ := hh.sameEffects hregs
    obtain ⟨hs', hx', hsame', hfinal⟩ := ih
    refine ⟨h' :: hs', .cons hh' (hsame.2.2 ▸ hx'), .cons hsame hsame', ?_⟩
    rw [final_cons, final_cons, hsame.2.2, hfinal]

/-- The callbacks of a table with the same effects are quiet too. -/
theorem quiet_of_sameEffects (hsame : List.Forall₂ Registration.SameEffects regs regs')
    (hregs : ∀ reg ∈ regs, reg.Quiet Q) : ∀ reg ∈ regs', reg.Quiet Q := by
  induction hsame with
  | nil => exact hregs
  | cons hreg _ ih =>
    obtain ⟨hquiet, hrest⟩ := List.forall_mem_cons.mp hregs
    refine List.forall_mem_cons.mpr ⟨fun cmd w => ?_, ih hrest⟩
    obtain ⟨es, r, w', hrun, hq⟩ := hquiet cmd w
    obtain ⟨r', hrun'⟩ := hreg.2 cmd w es r w' hrun
    exact ⟨es, r', w', hrun', hq⟩

variable (hregs : ∀ reg ∈ regs, reg.Quiet Q)

include hregs

theorem exists_executes : ∀ (cmds : List Command) (w : σ), ∃ hs, Executes Q regs cmds w hs
  | [], _ => ⟨[], .nil⟩
  | cmd :: rest, w => by
    obtain ⟨h, hh, -⟩ := handles_of_quiet hregs cmd (Q.popped w)
    obtain ⟨hs, hx⟩ := exists_executes rest h.after
    exact ⟨h :: hs, .cons hh hx⟩

/-- The queue that a round leaves to the next. -/
theorem Handles.commands_after {cmd : Command} {rest : List Command} {h : Handling σ}
    (hq : Q.commands w = cmd :: rest) (hh : Handles regs cmd (Q.popped w) h) :
    Q.commands h.after = rest := by
  rw [QueueIn.commands, hh.get_eq hregs]
  exact commands_popped hq

/-- With a round for each command, the loop is the execution of the queue, and empties it. -/
theorem Executes.drain_returns (hx : Executes Q regs cmds w hs) (hq : Q.commands w = cmds) :
    Q.commands (final w hs) = [] ∧ ∀ n, cmds.length ≤ n →
      (drain Q (table regs) n).Returns w (hs.flatMap Handling.output) ⟨⟩ (final w hs) := by
  induction hx with
  | nil => exact ⟨hq, fun n _ => drain_of_nil hq n⟩
  | cons hh _ ih =>
    obtain ⟨hempty, hrun⟩ := ih (hh.commands_after hregs hq)
    refine ⟨hempty, fun n hn => ?_⟩
    obtain ⟨n, rfl⟩ := Nat.exists_eq_add_one_of_ne_zero (Nat.ne_of_gt (Nat.lt_of_lt_of_le
      (Nat.succ_pos _) hn))
    have hrest := hrun n (Nat.le_of_succ_le_succ hn)
    unfold Prog.Returns at hrest ⊢
    rw [drain_of_cons hq, hh.serve_returns, Outcome.andThen_ok, hrest, Outcome.after_mk,
      List.flatMap_cons]
    rfl

/-- Each round takes one command. -/
theorem commands_drain : ∀ (n : ℕ) (w : σ),
    Q.commands ((drain Q (table regs) n).run w).state = (Q.commands w).drop n
  | 0, _ => rfl
  | n + 1, w => by
    cases hq : Q.commands w with
    | nil =>
      rw [drain_of_nil hq]
      exact hq
    | cons cmd rest =>
      obtain ⟨h, hh, -⟩ := handles_of_quiet hregs cmd (Q.popped w)
      have hrest := commands_drain n h.after
      rw [hh.commands_after hregs hq] at hrest
      rw [drain_of_cons hq, hh.serve_returns, Outcome.andThen_ok]
      exact hrest

end Execution

/-! ## The result -/

/-- The loop executes exactly the commands in the queue. -/
structure DrainsQueue {σ : Type} {m_max_depth : UInt32} (Q : QueueIn σ m_max_depth)
    (regs : List (Registration σ)) (w : σ) : Prop where
  /-- The queue is found empty for the first time after one round for each command. -/
  rounds : ∀ n, Q.commands ((drain Q (table regs) n).run w).state = [] ↔
    (Q.commands w).length ≤ n
  ends : ∀ n, (Q.commands w).length ≤ n →
    (drain Q (table regs) n).run w = (drainQueue Q (table regs)).run w
  /-- The commands are handled in order, and the callbacks invoked with the commands of
  their opcodes. -/
  executes : ∃ hs, Executes Q regs (Q.commands w) w hs ∧
    (drainQueue Q (table regs)).Returns w (hs.flatMap Handling.output) ⟨⟩ (final w hs) ∧
    Q.commands (final w hs) = [] ∧ hs.filterMap Handling.invocation =
      (Q.commands w).filterMap fun cmd => (latest regs cmd.opcode).map (·, cmd)
  /-- What is handled is what the table dispatches. -/
  dispatches : ∀ cmd w' h, Handles regs cmd w' h →
    ((table regs).dispatch cmd).Returns w' h.reply h.result h.after
  /-- Callbacks that answer something else change no other part of any handling. -/
  isolated : ∀ regs' hs, List.Forall₂ Registration.SameEffects regs regs' →
    Executes Q regs (Q.commands w) w hs → ∃ hs', Executes Q regs' (Q.commands w) w hs' ∧
      (drainQueue Q (table regs')).Returns w (hs'.flatMap Handling.output) ⟨⟩ (final w hs) ∧
      List.Forall₂ Handling.SameButResult hs hs'

theorem drainsQueue {σ : Type} {m_max_depth : UInt32} {Q : QueueIn σ m_max_depth}
    {regs : List (Registration σ)} (hregs : ∀ reg ∈ regs, reg.Quiet Q) (w : σ) :
    DrainsQueue Q regs w where
  rounds n := by
    rw [commands_drain hregs, List.drop_eq_nil_iff]
  ends n hn := by
    obtain ⟨hs, hx⟩ := exists_executes hregs (Q.commands w) w
    obtain ⟨-, hrun⟩ := hx.drain_returns hregs rfl
    exact (hrun n hn).trans (hrun _ (Nat.le_succ _)).symm
  executes := by
    obtain ⟨hs, hx⟩ := exists_executes hregs (Q.commands w) w
    obtain ⟨hempty, hrun⟩ := hx.drain_returns hregs rfl
    exact ⟨hs, hx, hrun _ (Nat.le_succ _), hempty, hx.invocations⟩
  dispatches _ _ _ hh := hh.dispatch_returns
  isolated regs' hs hsame hx := by
    obtain ⟨hs', hx', hsame', hfinal⟩ := hx.sameEffects hsame
    obtain ⟨-, hrun⟩ := hx'.drain_returns (quiet_of_sameEffects hsame hregs) rfl
    rw [hfinal] at hrun
    exact ⟨hs', hx', hrun _ (Nat.le_succ _), hsame'⟩

/-- A `NOOP` handler that succeeds, then one that fails in its place, and a `PAYLOAD_ON`
handler. -/
def reregistered : List (Registration (MainState {})) :=
  [⟨.NOOP, fun _ => return .SUCCESS⟩, ⟨.NOOP, fun _ => return .ERROR⟩,
    ⟨.PAYLOAD_ON, Main.printing (Main.seqLine "[CMD] PAYLOAD_ON seq=")⟩]

/-- A `NOOP`, a `SET_MODE` and a `PAYLOAD_ON` in the queue. -/
def threeQueued : MainState {} where
  cmd_queue := ⟨[{ opcode := .NOOP }, { opcode := .SET_MODE }, { opcode := .PAYLOAD_ON }],
    by decide⟩

theorem quiet_reregistered : ∀ reg ∈ reregistered, reg.Quiet (mainQueue {}) := by
  simp only [reregistered, List.forall_mem_cons, Registration.Quiet]
  exact ⟨fun _ w => ⟨_, _, w, rfl, rfl⟩, fun _ w => ⟨_, _, w, rfl, rfl⟩,
    fun _ w => ⟨_, _, w, rfl, rfl⟩, fun _ h => nomatch h⟩

/-- The loop of `main` runs the second `NOOP` handler and goes on after its failure. -/
theorem drainsQueue_reregistered : DrainsQueue (mainQueue {}) reregistered threeQueued ∧
    ((Main.drainQueue (table reregistered)).run threeQueued).result = .ok ⟨⟩ := by
  have hdrains : DrainsQueue (mainQueue {}) reregistered threeQueued :=
    drainsQueue quiet_reregistered threeQueued
  refine ⟨hdrains, ?_⟩
  obtain ⟨hs, -, hrun, -⟩ := hdrains.executes
  exact congrArg Outcome.result hrun

end CommandDrain

end Obcsw
