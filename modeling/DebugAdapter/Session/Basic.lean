import DebugAdapter.Session.Commands
import DebugAdapter.Session.Inspection

/-!
A debug session: the debugger, the calls of interpreter threads that have not returned, and what
has happened so far. Messages, questions to the interpreter and returns of calls are only ever
added.
-/

namespace DebugAdapter

structure Session where
  debugger : Debugger := {}
  outbox : List Message := []
  callbacks : List Callback := []
  /-- Handles of the calls that have returned, with the flag that exceptions return. -/
  finished : List (Nat × Option Bool) := []
  stopped : Option Stop := none
  /-- Calls that wait until their threads may run, in the order in which they began to. -/
  blocked : List Call := []
  deriving Inhabited

inductive Disposition where
  | handled
  | deferred
  | exit
  deriving DecidableEq, Repr

namespace Session

def send (session : Session) (messages : List Message) : Session :=
  { session with outbox := session.outbox ++ messages }

def emit (session : Session) (events : List Event) : Session :=
  session.send (events.map .event)

def note (session : Session) (callbacks : List Callback) : Session :=
  { session with callbacks := session.callbacks ++ callbacks }

def answer (session : Session) (request : Request) (outcome : Except Failure Body) : Session :=
  session.send [.response request.seq request.command outcome]

def modifyDebugger (session : Session) (change : Debugger → Debugger) : Session :=
  { session with debugger := change session.debugger }

def isTerminated (session : Session) : Bool :=
  session.debugger.isTerminated

def conclude (session : Session) (request : Request) (outcome : Except Failure Change) :
    Session × Disposition :=
  match outcome with
  | .ok change =>
    let session := { session with debugger := change.debugger }
    let session := session.send change.before
    let session := (session.answer request (.ok change.body)).emit change.after
    (session.modifyDebugger (·.releaseIfReady), if change.exit then .exit else .handled)
  | .error failure =>
    ((session.answer request (.error failure)).modifyDebugger (·.releaseIfReady), .handled)

def defer (session : Session) (deferred : Deferred) : Session :=
  session.modifyDebugger fun debugger => { debugger with queue := debugger.queue ++ [deferred] }

def handle (session : Session) (request : Request) : Session × Disposition :=
  if request.kind ≠ .request then (session, .handled)
  else
    match Command.ofName? request.command with
    | none => (session.answer request (.error (.unknownCommand request.command)), .handled)
    | some command =>
      if session.isTerminated && !command.endsSession then
        (session.answer request (.error .terminated), .handled)
      else
        match command with
        | .control command => session.conclude request (session.debugger.carryOut command request)
        | .stopped command =>
          if session.debugger.control.isStopped none then
            (session.defer ⟨request, command⟩, .deferred)
          else (session.answer request (.error (.notStopped request.command)), .handled)

/-- Ends the session on behalf of the program; true the first time. -/
def shutdown (session : Session) : Session × Bool :=
  let (debugger, messages, first) := session.debugger.teardown
  let session := { session with debugger }.send messages
  (session.emit (if first then [.terminated] else []), first)

def finish (session : Session) (handle : Nat) (value : Option Bool) : Session :=
  { session with finished := session.finished ++ [(handle, value)] }

/-- A call returns without having stopped. -/
def leave (session : Session) (call : Call) : Session :=
  match call.errand with
  | .line .. => session.finish call.handle none
  | .exception record =>
    if record.fatal then session.shutdown.1.finish call.handle none
    else session.finish call.handle (some false)

/-- All threads run on; the one that was stopped may be stepping. -/
def runThreads (debugger : Debugger) (thread : Nat) : Debugger :=
  let stepping := match debugger.control.state with | .stepping _ => true | _ => false
  { debugger with
    registry := debugger.registry.update fun other =>
      other.setRunning (stepping && other.id = thread) }

/-- The stopped call returns. After a panic the session is over. -/
def release (session : Session) (stop : Stop) : Session :=
  let session := { session with stopped := none }.modifyDebugger (runThreads · stop.call.thread)
  match stop.call.errand with
  | .line .. => session.finish stop.call.handle none
  | .exception record =>
    if record.fatal then session.shutdown.1.finish stop.call.handle none
    else session.finish stop.call.handle (some true)

/-- Lets the stopped thread go. Requests that are left are refused after the change of state, so
that none can be handed to a thread that no longer takes them. -/
def resume (session : Session) (stop : Stop) (how : Resume) : Session :=
  let debugger := session.debugger
  match debugger.control.resume stop.call.thread how.stepKind stop.call.interpreter.depth with
  | some control =>
    let refused := debugger.queue.map (Debugger.refusal .released)
    ({ session with debugger := { debugger with control, queue := [] } }.send refused).release stop
  | none => session.release stop

def reply (session : Session) (stop : Stop) (request : Request) (outcome : Except Failure Reply) :
    Session :=
  match outcome with
  | .error failure => session.answer request (.error failure)
  | .ok reply =>
    let stop := { stop with framesFetched := reply.framesFetched }
    let session := { session with debugger := reply.debugger, stopped := some stop }
    let session := (session.emit reply.events).answer request (.ok reply.body)
    match reply.resume with
    | some how => session.resume stop how
    | none => session

def serveNext (session : Session) : Session :=
  match session.stopped, session.debugger.queue with
  | some stop, deferred :: rest =>
    let session := session.modifyDebugger fun debugger => { debugger with queue := rest }
    let inspected := session.debugger.inspect stop deferred
    (session.note inspected.callbacks).reply stop deferred.request inspected.outcome
  | _, _ => session

/-- The stopped thread takes requests until the queue is empty or it runs on; each round takes one,
so as many rounds as there are requests suffice. -/
def serve (session : Session) : Session :=
  session.debugger.queue.foldl (fun session _ => session.serveNext) session

/-- Stops a thread that has become the stopper: the others are suspended, and the client gets all
output before it hears of the stop. -/
def stop (session : Session) (call : Call) (reason : Execution.StopReason)
    (exception : Option ExceptionRecord) : Session :=
  let debugger := session.debugger
  let registry := debugger.registry.update fun thread =>
    if thread.id = call.thread then thread.setStopped reason exception else thread.setSuspended
  let (debugger, output) := { debugger with registry }.flushOutput
  { session with debugger, stopped := some { call } }.emit
    (output ++ [Event.stopped call.thread reason exception])

def block (session : Session) (call : Call) : Session :=
  { session with blocked := session.blocked ++ [call] }

def logText (interpreter : Interpreter) (fragments : List Breakpoint.Fragment) :
    String × List Callback :=
  let part : Breakpoint.Fragment → String × List Callback
    | .text text => (text, [])
    | .expr expression =>
      (match interpreter.evaluate expression none with
        | .ok evaluation => evaluation.value
        | .error error =>
          String.singleton '{' ++ expression ++ ": " ++ error.message ++ String.singleton '}',
       [.evaluate expression none])
  let parts := fragments.map part
  (String.join (parts.map (·.1)), parts.flatMap (·.2))

/-- Decides a breakpoint's condition. One that fails is reported, and holds. -/
def checkCondition (session : Session) (interpreter : Interpreter) (condition : Option String) :
    Session × Bool :=
  match condition with
  | none => (session, true)
  | some expression =>
    let session := session.note [.evaluate expression (some 0)]
    match interpreter.condition expression with
    | .ok value => (session, value)
    | .error error =>
      (session.emit [Debugger.consoleEvent
        ("breakpoint condition '" ++ expression ++ "' failed: " ++ error.message)], true)

def log (session : Session) (interpreter : Interpreter) (source : Source) (line : Nat)
    (fragments : List Breakpoint.Fragment) : Session :=
  let (text, callbacks) := logText interpreter fragments
  (session.note callbacks).emit [.output {
    text := text ++ "\n"
    category := .console
    source := some source
    line := some (session.debugger.coordinates.clientLine line) }]

def beginStop (session : Session) (call : Call) (reason : Execution.StopReason)
    (exception : Option ExceptionRecord) : Session :=
  match session.debugger.control.beginStop call.thread reason with
  | none => session.block call
  | some (_, false) => session.leave call
  | some (control, true) =>
    (session.modifyDebugger fun debugger => { debugger with control }).stop call reason exception

/-- A line with breakpoints in force. A visit counts as a hit when its condition holds; a
breakpoint with a log message logs instead of stopping. -/
def visit (session : Session) (call : Call) (line : Nat) (source : Source.Resolved) : Session :=
  match session.debugger.breakpoints.get? source.key line with
  | none => session.leave call
  | some breakpoint =>
    let (session, holds) := session.checkCondition call.interpreter breakpoint.action.condition
    if !holds then session.leave call
    else
      let (breakpoints, hits) := session.debugger.breakpoints.recordHit source.key line
      let session := session.modifyDebugger fun debugger => { debugger with breakpoints }
      if breakpoint.action.hitCondition.any (!·.isMet hits) then session.leave call
      else
        match breakpoint.action.logMessage with
        | some fragments =>
          (session.log call.interpreter source.source line fragments).leave call
        | none => session.beginStop call .breakpoint none

def proceed (session : Session) (call : Call) : Session :=
  match call.errand with
  | .exception record => session.beginStop call .exception (some record)
  | .line line source =>
    let depth := call.interpreter.depth
    match session.debugger.control.lineGate call.thread depth source.skipped with
    | none => session.block call
    | some (control, gate) =>
      let session := session.modifyDebugger fun debugger => { debugger with control }
      match gate with
      | .stop reason => session.stop call reason none
      | .breakpoints => session.visit call line source
      | .suppressed | .terminated => session.leave call

def wake (debugger : Debugger) (call : Call) : Debugger :=
  match call.errand with
  | .exception _ => debugger
  | .line .. =>
    debugger.modifyThread call.thread fun thread =>
      if thread.phase = .suspended then thread.setRunning false else thread

def enter (session : Session) (call : Call) : Session :=
  match session.debugger.control.waitUntilRunnable call.thread with
  | none =>
    (session.modifyDebugger (·.modifyThread call.thread Thread.setSuspended)).block call
  | some false => session.leave call
  | some true => (session.modifyDebugger (wake · call)).proceed call

/-- Calls that need not wait any longer go on, one after the other in the order in which they began
to wait. When the session is over, the stopped call returns first. -/
def settle (session : Session) : Session :=
  let calls := session.blocked
  if session.isTerminated then
    let session := match session.stopped with | some stop => session.release stop | none => session
    calls.foldl leave { session with blocked := [] }
  else if session.debugger.control.stopper.isSome
      ∨ session.debugger.control.state = .initializing then session
  else
    let woken := session.modifyDebugger fun debugger => calls.foldl wake debugger
    calls.foldl proceed { woken with blocked := [] }

end Session

end DebugAdapter
