import Mathlib.Tactic.Common

/-!
# C++ exception classes

The exception classes of the standard library, of nlohmann/json and of yaml-cpp, with the
class each derives from. A `catch (const C&)` clause takes an exception exactly when its
class is `C` or derives from it (`CppException.isA`). The json exceptions derive from
`std::exception` directly, so neither a `std::runtime_error` nor a `std::invalid_argument`
clause takes one; the yaml-cpp exceptions derive from `std::runtime_error`.
-/

namespace Exceptions

/-- Exception classes, named as in C++. -/
inductive ExceptionClass
  | exception
  | logic_error
  | invalid_argument
  | runtime_error
  | system_error
  | bad_function_call
  | json_exception
  | json_parse_error
  | json_type_error
  | json_out_of_range
  | yaml_exception
  | yaml_parser_exception
  | yaml_bad_file
  | yaml_representation_exception
  | yaml_bad_subscript
  deriving DecidableEq, Repr

namespace ExceptionClass

/-- The direct base class. -/
def base : ExceptionClass → Option ExceptionClass
  | exception => none
  | logic_error => some exception
  | invalid_argument => some logic_error
  | runtime_error => some exception
  | system_error => some runtime_error
  | bad_function_call => some exception
  | json_exception => some exception
  | json_parse_error => some json_exception
  | json_type_error => some json_exception
  | json_out_of_range => some json_exception
  | yaml_exception => some runtime_error
  | yaml_parser_exception => some yaml_exception
  | yaml_bad_file => some yaml_exception
  | yaml_representation_exception => some yaml_exception
  | yaml_bad_subscript => some yaml_representation_exception

/-- The class and the next `n` classes above it. -/
def ancestors : ℕ → ExceptionClass → List ExceptionClass
  | 0, c => [c]
  | n + 1, c =>
    match c.base with
    | none => [c]
    | some b => c :: ancestors n b

/-- `c` is `d` or derives from it. No chain of bases is longer than four. -/
def derives (c d : ExceptionClass) : Bool :=
  decide (d ∈ ancestors 4 c)

@[simp] theorem derives_exception (c : ExceptionClass) : c.derives exception = true := by
  cases c <;> decide

@[simp] theorem derives_self (c : ExceptionClass) : c.derives c = true := by
  cases c <;> decide

end ExceptionClass

/-- An exception object : its class and what `what()` returns. -/
structure CppException where
  cls : ExceptionClass
  what : String
  deriving DecidableEq, Repr

namespace CppException

/-- Whether `catch (const c&)` takes the exception. -/
def isA (c : ExceptionClass) (e : CppException) : Bool :=
  e.cls.derives c

@[simp] theorem isA_mk (c d : ExceptionClass) (w : String) : isA c ⟨d, w⟩ = d.derives c :=
  rfl

/-- An exception of nlohmann/json is not a `std::runtime_error`. -/
theorem not_runtime_error_of_json {e : CppException} (h : e.isA .json_exception = true) :
    e.isA .runtime_error = false := by
  obtain ⟨c, w⟩ := e
  revert h
  cases c <;> simp [isA] <;> decide

@[simp] theorem isA_exception (e : CppException) : e.isA .exception = true := by
  simp [isA]

end CppException

/-! ## Computations that throw -/

section Bind

universe u v

variable {χ : Type u} {α β : Type v}

@[simp] theorem ok_bind (a : α) (f : α → Except χ β) :
    (Except.ok a >>= f) = f a :=
  rfl

@[simp] theorem error_bind (x : χ) (f : α → Except χ β) :
    (Except.error x >>= f) = .error x :=
  rfl

@[simp] theorem throw_eq_error (x : χ) : (throw x : Except χ α) = .error x :=
  rfl

@[simp] theorem pure_eq_ok (a : α) : (pure a : Except χ α) = .ok a :=
  rfl

/-- A sequence returns when its steps do, one after the other. -/
theorem bind_eq_ok {x : Except χ α} {g : α → Except χ β} {b : β} :
    (x >>= g) = .ok b ↔ ∃ a, x = .ok a ∧ g a = .ok b := by
  cases x <;> simp

variable {γ : Type*} {f : γ → Except χ α} {l : List γ}

/-- A computation returns exactly when it does not throw. -/
theorem exists_ok_iff (x : Except χ α) : (∃ a, x = .ok a) ↔ ¬∃ e, x = .error e := by
  cases x with
  | ok a => exact iff_of_true ⟨a, rfl⟩ (fun ⟨_, he⟩ => nomatch he)
  | error e => exact iff_of_false (fun ⟨_, ha⟩ => nomatch ha) (not_not_intro ⟨e, rfl⟩)

/-- A traversal that never throws is a map. -/
theorem mapM_eq_map {g : γ → α} (h : ∀ c ∈ l, f c = .ok (g c)) : l.mapM f = .ok (l.map g) := by
  induction l with
  | nil => rfl
  | cons c l ih =>
    have hhead := h c List.mem_cons_self
    have htail := ih fun c' hc' => h c' (List.mem_cons_of_mem _ hc')
    rw [List.mapM_cons, hhead, ok_bind, htail]
    rfl

/-- A traversal throws when one of its steps does. -/
theorem mapM_throws {c : γ} (hc : c ∈ l) (h : ∃ x, f c = .error x) : ∃ x, l.mapM f = .error x := by
  induction l with
  | nil => cases hc
  | cons c' l ih =>
    rw [List.mapM_cons]
    cases hhead : f c' with
    | error x => exact ⟨x, rfl⟩
    | ok a =>
      have hmem : c ∈ l := by
        rcases List.mem_cons.mp hc with rfl | hmem
        · obtain ⟨x, hx⟩ := h
          rw [hhead] at hx
          cases hx
        · exact hmem
      obtain ⟨x, hx⟩ := ih hmem
      rw [ok_bind, hx]
      exact ⟨x, rfl⟩

end Bind

/-- `throw std::runtime_error(w)`. -/
def runtime_error (w : String) : CppException :=
  ⟨.runtime_error, w⟩

/-- `throw std::invalid_argument(w)`. -/
def invalid_argument (w : String) : CppException :=
  ⟨.invalid_argument, w⟩

/-- `try x catch (const c& e) { throw h(e); }` around a computation without effects. -/
def rethrowing {α : Type*} (c : ExceptionClass) (h : CppException → CppException)
    (x : Except CppException α) : Except CppException α :=
  match x with
  | .ok a => .ok a
  | .error e => .error (if e.isA c then h e else e)

section Rethrowing

variable {α : Type*} (c : ExceptionClass) (h : CppException → CppException)

@[simp] theorem rethrowing_ok (a : α) : rethrowing c h (.ok a) = .ok a :=
  rfl

@[simp] theorem rethrowing_error (e : CppException) :
    rethrowing c h (.error e : Except CppException α) = .error (if e.isA c then h e else e) :=
  rfl

end Rethrowing

/-- The computation throws an exception that `catch (const c&)` takes. -/
def Throws {α : Type*} (c : ExceptionClass) (x : Except CppException α) : Prop :=
  ∃ e, x = .error e ∧ e.isA c = true

section Throws

variable {α β : Type} {c : ExceptionClass} {x : Except CppException α}

theorem throws_error {e : CppException} (h : e.isA c = true) :
    Throws c (.error e : Except CppException α) :=
  ⟨e, rfl, h⟩

theorem Throws.bind (h : Throws c x) (f : α → Except CppException β) : Throws c (x >>= f) := by
  obtain ⟨e, rfl, he⟩ := h
  exact throws_error he

theorem not_throws_ok (a : α) : ¬Throws c (.ok a) := by
  rintro ⟨_, ⟨⟩, _⟩

end Throws

end Exceptions
