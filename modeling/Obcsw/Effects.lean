import Obcsw.CommandDeserializer
import Obcsw.Program

/-!
# Effects

What a run of the sequential code shows to the outside : text on the two streams, frames
handed to the telemetry dispatcher, commands handed to the command handler and invocations
of registered handlers. `Obc σ α` is a program over the variables `σ` with these events and
C++ exceptions.
-/

open Exceptions Program

namespace Obcsw

/-- An effect of the sequential code. -/
inductive Event
  /-- Text on `std::cout`. -/
  | cout (text : Bytes)
  /-- Text on `std::cerr`. -/
  | cerr (text : Bytes)
  /-- `main` calls `dispatcher.enqueue(frame)`. -/
  | enqueue (frame : TelemetryFrame)
  /-- `main` calls `cmd_handler.dispatch(cmd)`. -/
  | dispatch (cmd : Command)
  /-- The handler registered for `opcode` is called. -/
  | invoke (opcode : UInt8) (cmd : Command)

namespace Event

/-- The handler invocations among some events. -/
def invocations (es : List Event) : List (UInt8 × Command) :=
  es.filterMap fun
    | invoke opcode cmd => some (opcode, cmd)
    | _ => none

/-- The commands handed to the command handler, in order. -/
def dispatched (es : List Event) : List Command :=
  es.filterMap fun
    | dispatch cmd => some cmd
    | _ => none

/-- The frames handed to the telemetry dispatcher, in order. -/
def enqueued (es : List Event) : List TelemetryFrame :=
  es.filterMap fun
    | enqueue frame => some frame
    | _ => none

theorem dispatched_append (es es' : List Event) :
    dispatched (es ++ es') = dispatched es ++ dispatched es' :=
  List.filterMap_append

theorem enqueued_append (es es' : List Event) :
    enqueued (es ++ es') = enqueued es ++ enqueued es' :=
  List.filterMap_append

end Event

/-- A program over the variables `σ`. -/
abbrev Obc (σ : Type) (α : Type) : Type :=
  Prog σ Event CppException α

end Obcsw
