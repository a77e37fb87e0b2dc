/-!
Execution control: the one state of a session, the thread that is stopped, the step under way and
the stop that is pending. A call that would have to wait has no result yet.
-/

namespace DebugAdapter.Execution

inductive StepKind where
  | into
  | over
  | out
  deriving DecidableEq, Repr

/-- Whether a step from call depth `origin` ends on a line at `depth`. -/
def StepKind.reached (kind : StepKind) (origin depth : Nat) : Bool :=
  match kind with
  | .into => true
  | .over => depth ≤ origin
  | .out => depth < origin

inductive StopReason where
  | entry
  | breakpoint
  | step
  | pause
  | exception
  deriving DecidableEq, Repr

inductive State where
  | initializing
  | running
  | stepping (kind : StepKind)
  | stopped (reason : StopReason)
  | terminated
  deriving DecidableEq, Repr, Inhabited

/-- What a line does: it stops its thread, looks for breakpoints, passes them by, or finds the
session over. -/
inductive LineGate where
  | stop (reason : StopReason)
  | breakpoints
  | suppressed
  | terminated
  deriving DecidableEq, Repr

structure StepTarget where
  kind : StepKind
  thread : Nat
  depth : Nat
  deriving DecidableEq, Repr

/-- The state in brief, for a check on every line: lines wait, only breakpoints can stop them,
something is under way, or the session is over. -/
inductive Quick where
  | wait
  | running
  | attention
  | terminated
  deriving DecidableEq, Repr, Inhabited

structure Control where
  state : State := .initializing
  step : Option StepTarget := none
  pending : Option StopReason := none
  stopper : Option Nat := none
  quick : Quick := .wait
  deriving DecidableEq, Repr, Inhabited

namespace Control

def brief (control : Control) : Quick :=
  match control.state with
  | .terminated => .terminated
  | .initializing => .wait
  | .running =>
    if control.step.isNone && control.pending.isNone && control.stopper.isNone then .running
    else .attention
  | _ => .attention

def publish (control : Control) : Control :=
  { control with quick := control.brief }

def isTerminated (control : Control) : Bool :=
  control.quick = .terminated

def heldByOther (control : Control) (thread : Nat) : Bool :=
  control.stopper.any (· ≠ thread)

def blocks (control : Control) (thread : Nat) : Bool :=
  control.state = .initializing || control.heldByOther thread

def configurationDone (control : Control) (stopOnEntry : Bool) : Option Control :=
  if control.state = .initializing then
    some <| publish { control with
      state := .running
      pending := if stopOnEntry then some .entry else control.pending }
  else none

/-- Asks the next thread that comes to a line to stop. -/
def requestPause (control : Control) : Option Control :=
  match control.state with
  | .stopped _ | .terminated => none
  | _ => some (publish { control with pending := some .pause })

def waitUntilRunnable (control : Control) (thread : Nat) : Option Bool :=
  if control.state = .terminated then some false
  else if control.blocks thread then none
  else some true

def enterStop (control : Control) (thread : Nat) (reason : StopReason) : Control :=
  publish { control with
    state := .stopped reason
    stopper := some thread
    step := none
    pending := if reason = .pause then none else control.pending }

/-- What a line of `thread` does at a call depth: a pending stop comes before the step of the
thread, and that before breakpoints. Lines in skipped files do nothing. -/
def passLine (control : Control) (thread depth : Nat) (skipped : Bool) : Control × LineGate :=
  if skipped then (control, .suppressed)
  else
    match control.pending with
    | some reason =>
      (enterStop { control with pending := none } thread reason, .stop reason)
    | none =>
      match control.step.filter (·.thread = thread) with
      | some step =>
        if step.kind.reached step.depth depth then (control.enterStop thread .step, .stop .step)
        else (control, .suppressed)
      | none => (control, .breakpoints)

def lineGate (control : Control) (thread depth : Nat) (skipped : Bool) :
    Option (Control × LineGate) :=
  if control.state = .terminated then some (control, .terminated)
  else if control.blocks thread then none
  else some (control.passLine thread depth skipped)

/-- Makes `thread` the one that is stopped; false if the session ended before. -/
def beginStop (control : Control) (thread : Nat) (reason : StopReason) :
    Option (Control × Bool) :=
  if control.state = .terminated then some (control, false)
  else if control.heldByOther thread then none
  else some (control.enterStop thread reason, true)

/-- Whether `thread`, or any thread if none is given, is stopped and serves requests. -/
def isStopped (control : Control) (thread : Option Nat) : Bool :=
  match control.state, control.stopper with
  | .stopped _, some stopper => thread.all (· = stopper)
  | _, _ => false

/-- Stepping out of the outermost call has no line to stop at, so it arms nothing. -/
def arm (control : Control) (thread depth : Nat) : Option StepKind → Control
  | none => { control with state := .running }
  | some kind =>
    if kind = .out ∧ depth = 0 then { control with state := .running }
    else { control with state := .stepping kind, step := some ⟨kind, thread, depth⟩ }

def resume (control : Control) (thread : Nat) (step : Option StepKind) (depth : Nat) :
    Option Control :=
  if control.stopper = some thread then
    let released := { control with stopper := none }
    some <| publish <|
      if control.state = .terminated then released else released.arm thread depth step
  else none

def abandonStep (control : Control) (thread : Nat) : Option Control :=
  if control.step.any (·.thread = thread) then
    some <| publish { control with
      step := none
      state := match control.state with | .stepping _ => .running | state => state }
  else none

/-- Ends the session; there is no result the second time. -/
def terminate (control : Control) : Option Control :=
  if control.state = .terminated then none
  else
    some <| publish { control with
      state := .terminated, step := none, pending := none, stopper := none }

end Control

def StepKind.name : StepKind → String
  | .into => "into"
  | .over => "over"
  | .out => "out"

def StopReason.name : StopReason → String
  | .entry => "entry"
  | .breakpoint => "breakpoint"
  | .step => "step"
  | .pause => "pause"
  | .exception => "exception"

def State.name : State → String
  | .initializing => "initializing"
  | .running => "running"
  | .stepping kind => "stepping:" ++ kind.name
  | .stopped reason => "stopped:" ++ reason.name
  | .terminated => "terminated"

def Quick.name : Quick → String
  | .wait => "wait"
  | .running => "running"
  | .attention => "attention"
  | .terminated => "terminated"

def LineGate.name : LineGate → String
  | .stop reason => "stop:" ++ reason.name
  | .breakpoints => "breakpoints"
  | .suppressed => "suppressed"
  | .terminated => "terminated"

end DebugAdapter.Execution
