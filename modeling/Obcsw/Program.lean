import Mathlib.Logic.Basic
import Mathlib.Tactic.Common

/-!
# Programs with events, state and exceptions

A sequential C++ function reads and writes its variables, prints, calls other objects and
may leave by an exception. `Prog σ ε χ α` is such a function : from a state in `σ` it emits
events in `ε`, in order, and ends in a state with a value in `α` or an exception in `χ`.
The events and the state survive an exception, as output already printed and variables
already written do.

`Returns` and `Throws` are the two ways a run ends. Their rules compose along `>>=`, and
`Returns.forM` is the rule for a loop over a list.
-/

namespace Program

universe u

/-- What a run leaves behind. -/
structure Outcome (σ ε χ α : Type u) where
  /-- The events emitted, oldest first. -/
  events : List ε
  /-- The final state. -/
  state : σ
  /-- The value returned, or the exception that escapes. -/
  result : Except χ α

/-- A program : the outcome of a run from each state. -/
@[ext] structure Prog (σ ε χ α : Type u) where
  run : σ → Outcome σ ε χ α

variable {σ ε χ α β : Type u}

/-- The outcome with `es` emitted before it. -/
def Outcome.after (es : List ε) (o : Outcome σ ε χ α) : Outcome σ ε χ α :=
  { o with events := es ++ o.events }

/-- Continue a returned outcome with `f`; an exception skips `f`. -/
def Outcome.andThen (o : Outcome σ ε χ α) (f : α → Prog σ ε χ β) : Outcome σ ε χ β :=
  match o.result with
  | .ok a => ((f a).run o.state).after o.events
  | .error x => ⟨o.events, o.state, .error x⟩

instance : Monad (Prog σ ε χ) where
  pure a := ⟨fun s => ⟨[], s, .ok a⟩⟩
  bind m f := ⟨fun s => (m.run s).andThen f⟩

/-! ## Primitive programs -/

/-- Emit one event. -/
def emit (e : ε) : Prog σ ε χ PUnit :=
  ⟨fun s => ⟨[e], s, .ok ⟨⟩⟩⟩

/-- Throw an exception. -/
def raise (x : χ) : Prog σ ε χ α :=
  ⟨fun s => ⟨[], s, .error x⟩⟩

/-- Read the state. -/
def getState : Prog σ ε χ σ :=
  ⟨fun s => ⟨[], s, .ok s⟩⟩

/-- Write the state. -/
def update (f : σ → σ) : Prog σ ε χ PUnit :=
  ⟨fun s => ⟨[], f s, .ok ⟨⟩⟩⟩

/-- A pure computation that may fail, run as a program. -/
def ofExcept (x : Except χ α) : Prog σ ε χ α :=
  ⟨fun s => ⟨[], s, x⟩⟩

/-- `try m` with catch clauses : `clauses x` is the handler of the first clause that takes
the exception `x`, and none when `x` goes on. -/
def tryCatch (m : Prog σ ε χ α) (clauses : χ → Option (Prog σ ε χ α)) : Prog σ ε χ α :=
  ⟨fun s =>
    match (m.run s).result with
    | .ok _ => m.run s
    | .error x =>
      match clauses x with
      | some handler => (handler.run (m.run s).state).after (m.run s).events
      | none => m.run s⟩

section Evaluation

variable (s : σ)

@[simp] theorem Outcome.after_mk (es es' : List ε) (r : Except χ α) :
    Outcome.after es ⟨es', s, r⟩ = ⟨es ++ es', s, r⟩ :=
  rfl

@[simp] theorem Outcome.after_nil (o : Outcome σ ε χ α) : o.after [] = o :=
  rfl

theorem Outcome.after_after (es es' : List ε) (o : Outcome σ ε χ α) :
    (o.after es').after es = o.after (es ++ es') := by
  simp [Outcome.after]

@[simp] theorem Outcome.andThen_ok (es : List ε) (a : α) (f : α → Prog σ ε χ β) :
    Outcome.andThen ⟨es, s, .ok a⟩ f = ((f a).run s).after es :=
  rfl

@[simp] theorem Outcome.andThen_error (es : List ε) (x : χ) (f : α → Prog σ ε χ β) :
    Outcome.andThen ⟨es, s, .error x⟩ f = ⟨es, s, .error x⟩ :=
  rfl

@[simp] theorem pure_run (a : α) : (pure a : Prog σ ε χ α).run s = ⟨[], s, .ok a⟩ :=
  rfl

@[simp] theorem bind_run (m : Prog σ ε χ α) (f : α → Prog σ ε χ β) :
    (m >>= f).run s = (m.run s).andThen f :=
  rfl

@[simp] theorem map_run (f : α → β) (m : Prog σ ε χ α) :
    (f <$> m).run s = (m.run s).andThen fun a => pure (f a) :=
  rfl

@[simp] theorem emit_run (e : ε) : (emit e : Prog σ ε χ PUnit).run s = ⟨[e], s, .ok ⟨⟩⟩ :=
  rfl

@[simp] theorem raise_run (x : χ) : (raise x : Prog σ ε χ α).run s = ⟨[], s, .error x⟩ :=
  rfl

@[simp] theorem getState_run : (getState : Prog σ ε χ σ).run s = ⟨[], s, .ok s⟩ :=
  rfl

@[simp] theorem update_run (f : σ → σ) :
    (update f : Prog σ ε χ PUnit).run s = ⟨[], f s, .ok ⟨⟩⟩ :=
  rfl

@[simp] theorem ofExcept_run (x : Except χ α) :
    (ofExcept x : Prog σ ε χ α).run s = ⟨[], s, x⟩ :=
  rfl

variable {m : Prog σ ε χ α} {clauses : χ → Option (Prog σ ε χ α)} {es : List ε} {s s' : σ}

theorem tryCatch_of_ok {a : α} (hm : m.run s = ⟨es, s', .ok a⟩) :
    (tryCatch m clauses).run s = ⟨es, s', .ok a⟩ := by
  simp [tryCatch, hm]

theorem tryCatch_of_caught {x : χ} {handler : Prog σ ε χ α} (hm : m.run s = ⟨es, s', .error x⟩)
    (hx : clauses x = some handler) : (tryCatch m clauses).run s = (handler.run s').after es := by
  simp [tryCatch, hm, hx]

theorem tryCatch_of_escaped {x : χ} (hm : m.run s = ⟨es, s', .error x⟩) (hx : clauses x = none) :
    (tryCatch m clauses).run s = ⟨es, s', .error x⟩ := by
  simp [tryCatch, hm, hx]

end Evaluation

theorem bind_assoc (m : Prog σ ε χ α) (f : α → Prog σ ε χ β) {γ : Type u}
    (g : β → Prog σ ε χ γ) : (m >>= f) >>= g = m >>= fun a => f a >>= g := by
  ext1
  funext s
  simp only [bind_run]
  rcases m.run s with ⟨es, s', x | a⟩
  · rfl
  · simp only [Outcome.andThen_ok, bind_run]
    rcases (f a).run s' with ⟨es', s'', y | b⟩
    · rfl
    · simp [Outcome.after_after]

theorem bind_pure_self (m : Prog σ ε χ α) : m >>= pure = m := by
  ext1
  funext s
  rw [bind_run]
  rcases m.run s with ⟨es, s', x | a⟩ <;> simp

instance : LawfulMonad (Prog σ ε χ) :=
  LawfulMonad.mk' _ (fun m => bind_pure_self m) (fun _ _ => rfl) (fun m f g => bind_assoc m f g)

/-! ## How a run ends -/

/-- From `s`, the program emits `es` and returns `a` in the state `s'`. -/
def Prog.Returns (m : Prog σ ε χ α) (s : σ) (es : List ε) (a : α) (s' : σ) : Prop :=
  m.run s = ⟨es, s', .ok a⟩

/-- From `s`, the program emits `es` and leaves by the exception `x` in the state `s'`. -/
def Prog.Throws (m : Prog σ ε χ α) (s : σ) (es : List ε) (x : χ) (s' : σ) : Prop :=
  m.run s = ⟨es, s', .error x⟩

/-- A run that returns does not throw. -/
theorem Prog.Returns.not_throws {m : Prog σ ε χ α} {s s' s'' : σ} {es es' : List ε} {a : α} {x : χ}
    (h : m.Returns s es a s') : ¬m.Throws s es' x s'' := by
  intro hthrows
  cases h.symm.trans hthrows

theorem Prog.Returns.bind {m : Prog σ ε χ α} {f : α → Prog σ ε χ β} {s s' s'' : σ}
    {es es' : List ε} {a : α} {b : β} (hm : m.Returns s es a s') (hf : (f a).Returns s' es' b s'') :
    (m >>= f).Returns s (es ++ es') b s'' := by
  unfold Prog.Returns at *
  rw [bind_run, hm, Outcome.andThen_ok, hf, Outcome.after_mk]

/-- An exception of the second part, after the first has returned. -/
theorem Prog.Returns.bind_throws {m : Prog σ ε χ α} {f : α → Prog σ ε χ β} {s s' s'' : σ}
    {es es' : List ε} {a : α} {x : χ} (hm : m.Returns s es a s') (hf : (f a).Throws s' es' x s'') :
    (m >>= f).Throws s (es ++ es') x s'' := by
  unfold Prog.Returns Prog.Throws at *
  rw [bind_run, hm, Outcome.andThen_ok, hf, Outcome.after_mk]

/-- An exception skips what comes after it. -/
theorem Prog.Throws.bind {m : Prog σ ε χ α} {s s' : σ} {es : List ε} {x : χ}
    (hm : m.Throws s es x s') (f : α → Prog σ ε χ β) : (m >>= f).Throws s es x s' := by
  unfold Prog.Throws at *
  rw [bind_run, hm, Outcome.andThen_error]

/-- A loop over a list whose body always returns : the events of the iterations in order,
and the state folded through them. -/
theorem Prog.Returns.forM {body : α → Prog σ ε χ PUnit} {out : α → List ε} {next : σ → α → σ}
    (hbody : ∀ a s, (body a).Returns s (out a) ⟨⟩ (next s a)) :
    ∀ (l : List α) (s : σ), (l.forM body).Returns s (l.flatMap out) ⟨⟩ (l.foldl next s)
  | [], _ => rfl
  | a :: l, s => (hbody a s).bind (Prog.Returns.forM hbody l (next s a))

end Program
