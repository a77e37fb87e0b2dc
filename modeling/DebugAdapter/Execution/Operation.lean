import DebugAdapter.Execution.Control

/-!
Operations on execution control as data, and a history of them in which one call may wait until
the others let it proceed.
-/

namespace DebugAdapter.Execution

inductive Operation where
  | configurationDone (stopOnEntry : Bool)
  | requestPause
  | waitUntilRunnable (thread : Nat)
  | lineGate (thread depth : Nat) (skipped : Bool)
  | beginStop (thread : Nat) (reason : StopReason)
  | forwardIfStopped (thread : Option Nat)
  | resume (thread : Nat) (step : Option StepKind) (depth : Nat)
  | abandonStep (thread : Nat)
  | terminate
  deriving DecidableEq, Repr

inductive Answer where
  | flag (value : Bool)
  | gate (gate : LineGate)
  deriving DecidableEq, Repr

/-- Whom an operation called back: nobody, the one who forwards or drains, or the one who drains
for the thread that was stopped. -/
inductive Callback where
  | none
  | called
  | drained (stopper : Option Nat)
  deriving DecidableEq, Repr

structure Outcome where
  control : Control
  answer : Answer
  callback : Callback := .none

namespace Control

def attempt (control : Control) (next : Option Control) (callback : Callback) : Outcome :=
  match next with
  | some next => ⟨next, .flag true, callback⟩
  | none => ⟨control, .flag false, .none⟩

def perform (control : Control) : Operation → Option Outcome
  | .configurationDone stopOnEntry =>
    some (control.attempt (control.configurationDone stopOnEntry) .none)
  | .requestPause => some (control.attempt control.requestPause .none)
  | .waitUntilRunnable thread =>
    (control.waitUntilRunnable thread).map fun value => ⟨control, .flag value, .none⟩
  | .lineGate thread depth skipped =>
    (control.lineGate thread depth skipped).map fun (next, gate) => ⟨next, .gate gate, .none⟩
  | .beginStop thread reason =>
    (control.beginStop thread reason).map fun (next, value) => ⟨next, .flag value, .none⟩
  | .forwardIfStopped thread =>
    if control.isStopped thread then some ⟨control, .flag true, .called⟩
    else some ⟨control, .flag false, .none⟩
  | .resume thread step depth =>
    some (control.attempt (control.resume thread step depth) .called)
  | .abandonStep thread => some (control.attempt (control.abandonStep thread) .none)
  | .terminate => some (control.attempt control.terminate (.drained control.stopper))

end Control

/-- Execution control with the call that waits, if any. -/
structure Monitor where
  control : Control := {}
  waiting : Option Operation := none
  deriving Inhabited

/-- What a step of a history shows: the outcome of its operation, if it did not have to wait, and
the answer of the waiting call, if it was let go. -/
structure Monitor.Report where
  answer : Option Answer
  callback : Callback
  released : Option Answer

namespace Monitor

def waits : Operation → Bool
  | .lineGate .. | .beginStop .. => true
  | _ => false

def release (monitor : Monitor) : Monitor × Option Answer :=
  match monitor.waiting.bind monitor.control.perform with
  | some outcome => (⟨outcome.control, none⟩, some outcome.answer)
  | none => (monitor, none)

/-- Performs an operation. A call that has to wait is kept if no other one waits, and is dropped
otherwise. -/
def step (monitor : Monitor) (operation : Operation) : Monitor × Report :=
  match monitor.control.perform operation with
  | some outcome =>
    let (next, released) := release { monitor with control := outcome.control }
    (next, ⟨some outcome.answer, outcome.callback, released⟩)
  | none =>
    let kept := monitor.waiting.isNone && waits operation
    let (next, released) :=
      release { monitor with waiting := if kept then some operation else monitor.waiting }
    (next, ⟨none, .none, released⟩)

end Monitor

end DebugAdapter.Execution
