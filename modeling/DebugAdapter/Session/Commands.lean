import DebugAdapter.Session.Debugger

/-!
The commands that are carried out at once. A command either fails, and then nothing has changed,
or it gives the new state and its answer, with the messages before the answer and the events after
it.
-/

namespace DebugAdapter

structure Change where
  debugger : Debugger
  before : List Message := []
  body : Body := .empty
  after : List Event := []
  exit : Bool := false

namespace Debugger

def handshake (debugger : Debugger) (request : Request) : Except Failure Change :=
  if debugger.initialized then .error .alreadyInitialized
  else
    let arguments := (Arguments.read? Arguments.initialization request).getD {}
    .ok {
      debugger := { debugger with
        initialized := true
        coordinates := {
          linesFromZero := !arguments.linesStartAt1.getD true
          columnsFromZero := !arguments.columnsStartAt1.getD true } }
      body := .capabilities
      after := [.initialized] }

def redirections (settings : Config.Settings) : List Output.Category :=
  (if settings.captures .stdout then [.stdout] else [])
    ++ if settings.captures .stderr then [.stderr] else []

/-- Launches the program or attaches to it, with the settings that the request carries. -/
def start (debugger : Debugger) (request : Request) : Except Failure Change :=
  if debugger.launched then .error .alreadyStarted
  else
    match debugger.config.apply .launch (.object (Arguments.launchSettings request)) with
    | .error error => .error (.startFailed request.command error)
    | .ok config =>
      let (debugger, events) := debugger.reconfigure config
      .ok {
        debugger := { debugger with
          redirected := redirections config.settings
          launched := true
          stopOnEntry := config.settings.stopOnEntry
          capturePrint := config.settings.captures .print }
        before := events.map .event }

/-- The key under which breakpoints of a source are kept. -/
def breakpointKey? (source : Source) : Option String :=
  match source.sourceReference.filter (0 < ·) with
  | some reference => some (Source.referenceKey reference)
  | none => (source.path.filter fun path => Text.trimmed path ≠ "").map Path.key

def setBreakpoints (debugger : Debugger) (request : Request) : Except Failure Change :=
  match Arguments.read? Arguments.setBreakpoints request with
  | none => .error (.invalidArguments request.command)
  | some arguments =>
    match breakpointKey? arguments.source with
    | none => .error .noSource
    | some key =>
      let coordinates := debugger.coordinates
      let requests := arguments.requests.map fun breakpoint =>
        { breakpoint with line := coordinates.interpreterLine breakpoint.line }
      let (breakpoints, reports) := debugger.breakpoints.replace key arguments.source requests
      .ok {
        debugger := { debugger with breakpoints }
        body := .breakpoints <| reports.map fun report =>
          { report with line := coordinates.clientLine report.line } }

def setExceptionBreakpoints (debugger : Debugger) (request : Request) : Except Failure Change :=
  match Arguments.read? Arguments.filters request with
  | none => .error (.invalidArguments request.command)
  | some filters =>
    match Config.checkFilters filters with
    | .error error => .error (.config error)
    | .ok () =>
      .ok { debugger := { debugger with exceptionFilters := filters, clientFilters := true } }

def configurationDone (debugger : Debugger) : Except Failure Change :=
  if debugger.configured then .error .alreadyConfigured
  else .ok { debugger := { debugger with configured := true } }

/-- A program that is stopped or over counts as paused. -/
def pause (debugger : Debugger) (request : Request) : Except Failure Change :=
  match Arguments.read? Arguments.thread request with
  | none => .error (.invalidArguments request.command)
  | some _ =>
    .ok { debugger := { debugger with
      control := debugger.control.requestPause.getD debugger.control } }

def finishSession (debugger : Debugger) (exit : Bool) : Change :=
  let (debugger, before, first) := debugger.teardown
  { debugger, before, exit, after := if first then [.terminated] else [] }

def carryOut (debugger : Debugger) (command : ControlCommand) (request : Request) :
    Except Failure Change :=
  match command with
  | .handshake => debugger.handshake request
  | .launch | .attach => debugger.start request
  | .setBreakpoints => debugger.setBreakpoints request
  | .setExceptionBreakpoints => debugger.setExceptionBreakpoints request
  | .configurationDone => debugger.configurationDone
  | .pause => debugger.pause request
  | .terminate => .ok (debugger.finishSession false)
  | .disconnect => .ok (debugger.finishSession true)

end Debugger

end DebugAdapter
