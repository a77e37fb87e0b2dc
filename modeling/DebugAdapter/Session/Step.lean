import DebugAdapter.Session.Basic

/-!
The steps of a session: requests of the client, calls of the interpreter, and calls of the program
that embeds the debugger. A step runs until every interpreter thread is idle, stopped or blocked.
-/

namespace DebugAdapter

inductive HookEvent where
  | line (line : Nat)
  | call
  | return_
  deriving DecidableEq, Repr

inductive ExceptionKind where
  | uncaught
  | caught
  deriving DecidableEq, Repr

def ExceptionKind.filter : ExceptionKind → String
  | .uncaught => "error"
  | .caught => "caught"

/-- What became of a call: it returned, it is stopped, it waits, or its handle was busy. -/
inductive CallState where
  | done
  | stopped
  | blocked
  | busy
  deriving DecidableEq, Repr

namespace Session

def attach (session : Session) (handle : Nat) : Session × Thread :=
  let (debugger, thread, events) := session.debugger.attach handle
  ({ session with debugger }.emit events, thread)

def findOrAttach (session : Session) (handle : Nat) : Session × Thread :=
  match session.debugger.registry.findByHandle? handle with
  | some thread => (session, thread)
  | none => session.attach handle

def resolve (session : Session) (interpreter : Interpreter) : Session × Source.Resolved :=
  let resolution := session.debugger.resolve interpreter interpreter.chunk
  let session := { session with debugger := resolution.debugger }.note resolution.callbacks
  (session.emit resolution.events, resolution.resolved)

def visitLine (session : Session) (handle thread : Nat) (interpreter : Interpreter)
    (line : Nat) : Session :=
  let (session, source) := session.resolve interpreter
  session.enter { handle, thread, interpreter, errand := .line line source }

/-- Whether a line can be passed by at once: the program runs, nothing is pending, and the chunk is
known to be skipped or to have no breakpoint on the line. -/
def passesBy (debugger : Debugger) (quick : Execution.Quick) (chunk : List UInt8) (line : Nat) :
    Bool :=
  quick = .running &&
    match debugger.sources.find? chunk with
    | some source => source.skipped || !debugger.breakpoints.contains source.key line
    | none => false

def hook (session : Session) (handle : Nat) (interpreter : Interpreter) (event : HookEvent) :
    Session :=
  let quick := session.debugger.control.quick
  if quick = .terminated then session.finish handle none
  else
    let (session, thread) := session.findOrAttach handle
    match event with
    | .call | .return_ => session.finish handle none
    | .line line =>
      if passesBy session.debugger quick interpreter.chunk line then session.finish handle none
      else session.visitLine handle thread.id interpreter line

def exception (session : Session) (handle : Nat) (interpreter : Interpreter)
    (kind : ExceptionKind) (message : String) : Session :=
  if session.isTerminated || !session.debugger.exceptionFilters.contains kind.filter then
    session.finish handle (some false)
  else
    let (session, thread) := session.attach handle
    let record : ExceptionRecord := {
      kind := kind.filter
      message := session.debugger.mapping.exceptionMessage message
      fatal := false }
    session.enter { handle, thread := thread.id, interpreter, errand := .exception record }

/-- A panic stops its thread whatever the filters are, and then ends the session. -/
def panic (session : Session) (handle : Nat) (interpreter : Interpreter) (message : String) :
    Session :=
  if session.isTerminated then session.finish handle none
  else
    let (session, thread) := session.attach handle
    let record : ExceptionRecord := {
      kind := "panic"
      message := session.debugger.mapping.exceptionMessage message
      fatal := true }
    session.enter { handle, thread := thread.id, interpreter, errand := .exception record }

def isStoppedAt (session : Session) (handle : Nat) : Bool :=
  session.stopped.any (·.call.handle = handle)

def isBlockedAt (session : Session) (handle : Nat) : Bool :=
  session.blocked.any (·.handle = handle)

def callState (session : Session) (handle : Nat) : CallState :=
  if session.isStoppedAt handle then .stopped
  else if session.isBlockedAt handle then .blocked
  else .done

/-- Makes a call on the thread of a handle, unless that thread is inside of another one. -/
def call (session : Session) (handle : Nat) (run : Session → Session) : Session × CallState :=
  if session.isStoppedAt handle || session.isBlockedAt handle then (session, .busy)
  else
    let session := (run session).settle
    (session, session.callState handle)

/-- Comes to lines in turn until one does not return; tells how many were tried. -/
def lines (session : Session) (handle : Nat) : List (Interpreter × Nat) → Session × Nat
  | [] => (session, 0)
  | (interpreter, line) :: rest =>
    match session.call handle (·.hook handle interpreter (.line line)) with
    | (session, .done) =>
      let (session, count) := lines session handle rest
      (session, count + 1)
    | (session, _) => (session, 1)

def request (session : Session) (request : Request) : Session × Disposition :=
  let (session, disposition) := session.handle request
  (session.serve.settle, disposition)

def handleAll : Session → List Request → Session × List Disposition
  | session, [] => (session, [])
  | session, request :: rest =>
    let (session, disposition) := session.handle request
    let (session, dispositions) := handleAll session rest
    (session, disposition :: dispositions)

/-- The evaluation that keeps the interpreter busy while further requests arrive, if the first one
of a batch is such. -/
def busyWith? (session : Session) (request : Request) : Option Stop :=
  match session.stopped, Command.ofName? request.command with
  | some stop, some (.stopped .evaluate) =>
    if request.kind = .request && session.debugger.queue.isEmpty
        && session.debugger.control.isStopped none
        && (Arguments.read? Arguments.evaluate request).isSome then some stop
    else none
  | _, _ => none

/-- Requests that arrive while the interpreter is busy with the first of them: those for the
stopped thread queue up behind it. -/
def batch (session : Session) (requests : List Request) : Session × List Disposition :=
  match requests with
  | [] => (session, [])
  | first :: rest =>
    match session.busyWith? first with
    | some stop =>
      let inspected := session.debugger.inspect stop ⟨first, .evaluate⟩
      let (session, dispositions) := handleAll (session.note inspected.callbacks) rest
      let body := inspected.outcome.map (·.body)
      ((session.answer first body).serve.settle, .deferred :: dispositions)
    | none =>
      let (session, dispositions) := session.handleAll requests
      (session.serve.settle, dispositions)

def detach (session : Session) (handle : Nat) (announce : Bool) : Session × Bool :=
  match session.debugger.detach handle announce with
  | some (debugger, events) => ({ session with debugger }.emit events, true)
  | none => (session, false)

def origin (session : Session) (place : Option (Interpreter × Nat)) :
    Session × Option Output.Attribution :=
  match place with
  | none => (session, none)
  | some (interpreter, line) =>
    let (session, source) := session.resolve interpreter
    (session, some { source := source.source, line })

def capture (session : Session) (category : Output.Category) (bytes : List UInt8)
    (attribution : Option Output.Attribution) : Session :=
  let (debugger, events) := session.debugger.capture category bytes attribution
  { session with debugger }.emit events

/-- Shows printed text to the client; false if the caller has to write it itself. -/
def print (session : Session) (bytes : List UInt8)
    (attribution : Option Output.Attribution) : Session × Bool :=
  if session.debugger.capturePrint then (session.capture .stdout bytes attribution, true)
  else (session, false)

/-- Text that the program writes to one of its native streams; true if that is redirected. -/
def native (session : Session) (stream : Output.Category) (bytes : List UInt8) :
    Session × Bool :=
  if session.debugger.redirected.contains stream then
    (session.capture stream bytes none, true)
  else (session, false)

def configure (session : Session) (config : Except Config.Error Config.Store) :
    Session × Option Config.Error :=
  match config with
  | .error error => (session, some error)
  | .ok config =>
    let (debugger, events) := session.debugger.reconfigure config
    ({ session with debugger }.emit events, none)

def updateConfig (session : Session) (update : Json) : Session × Option Config.Error :=
  session.configure (session.debugger.config.apply .runtime update)

def loadDefaults (session : Session) (path : String) (content : Except Config.ReadFault (List UInt8)) :
    Session × Option Config.Error :=
  session.configure (session.debugger.config.loadDefaults path content)

end Session

inductive Step where
  | request (request : Request)
  | batch (requests : List Request)
  | hook (handle : Nat) (interpreter : Interpreter) (event : HookEvent)
  | lines (handle : Nat) (lines : List (Interpreter × Nat))
  | exception (handle : Nat) (interpreter : Interpreter) (kind : ExceptionKind) (message : String)
  | panic (handle : Nat) (interpreter : Interpreter) (message : String)
  | attach (handle : Nat)
  | detach (handle : Nat) (announce : Bool)
  | print (bytes : List UInt8) (origin : Option (Interpreter × Nat))
  | capture (category : Output.Category) (bytes : List UInt8)
      (origin : Option (Interpreter × Nat))
  | native (stream : Output.Category) (bytes : List UInt8)
  | updateConfig (update : Json)
  | loadDefaults (path : String) (content : Except Config.ReadFault (List UInt8))
  | config
  | shutdown

inductive StepResult where
  | none
  | disposition (disposition : Disposition)
  | dispositions (dispositions : List Disposition)
  | call (state : CallState)
  | count (lines : Nat)
  | thread (id : Nat)
  | flag (value : Bool)
  | refused (error : Config.Error)
  | settings (settings : Config.Settings)

namespace Session

def configResult (error : Option Config.Error) : StepResult :=
  match error with
  | some error => .refused error
  | none => .none

def perform (session : Session) : Step → Session × StepResult
  | .request request =>
    let (session, disposition) := session.request request
    (session, .disposition disposition)
  | .batch requests =>
    let (session, dispositions) := session.batch requests
    (session, .dispositions dispositions)
  | .hook handle interpreter event =>
    let (session, state) := session.call handle (·.hook handle interpreter event)
    (session, .call state)
  | .lines handle lines =>
    let (session, count) := session.lines handle lines
    (session, .count count)
  | .exception handle interpreter kind message =>
    let (session, state) := session.call handle (·.exception handle interpreter kind message)
    (session, .call state)
  | .panic handle interpreter message =>
    let (session, state) := session.call handle (·.panic handle interpreter message)
    (session, .call state)
  | .attach handle =>
    let (session, thread) := session.attach handle
    (session, .thread thread.id)
  | .detach handle announce =>
    let (session, known) := session.detach handle announce
    (session, .flag known)
  | .print bytes origin =>
    let (session, attribution) := session.origin origin
    let (session, shown) := session.print bytes attribution
    (session, .flag shown)
  | .capture category bytes origin =>
    let (session, attribution) := session.origin origin
    (session.capture category bytes attribution, .none)
  | .native stream bytes =>
    let (session, redirected) := session.native stream bytes
    (session, .flag redirected)
  | .updateConfig update =>
    let (session, error) := session.updateConfig update
    (session, configResult error)
  | .loadDefaults path content =>
    let (session, error) := session.loadDefaults path content
    (session, configResult error)
  | .config => (session, .settings session.debugger.config.settings)
  | .shutdown =>
    let (session, first) := session.shutdown
    (session.settle, .flag first)

def run (session : Session) (steps : List Step) : Session :=
  steps.foldl (fun session step => (session.perform step).1) session

end Session

end DebugAdapter
