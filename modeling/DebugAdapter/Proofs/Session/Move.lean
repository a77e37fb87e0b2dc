import DebugAdapter.Proofs.Session.Inspection
import DebugAdapter.Session.Step
import Mathlib.Logic.Relation

/-! What can happen to a session, move by move. The client and the embedding program act on it, and
the program under the debugger advances in it. A step of a session is made of such moves, so what
all of them preserve holds in every session. -/
namespace DebugAdapter

def Call.StopsFor (call : Call) (reason : Execution.StopReason)
    (exception : Option ExceptionRecord) : Prop :=
  match call.errand with
  | .line .. => reason ≠ .exception ∧ exception = none
  | .exception record => reason = .exception ∧ exception = some record

namespace Session

def calls (session : Session) : List Call :=
  (session.stopped.map (·.call)).toList ++ session.blocked

def Free (session : Session) (call : Call) : Prop :=
  session.debugger.control.waitUntilRunnable call.thread = some true

def discover (session : Session) (interpreter : Interpreter) (chunk : List UInt8) : Session :=
  let resolution := session.debugger.resolve interpreter chunk
  ({ session with debugger := resolution.debugger }.note resolution.callbacks).emit resolution.events

/-- The session once a command is carried out, before the program is let go. -/
def apply (session : Session) (request : Request) (change : Change) : Session :=
  (({ session with debugger := change.debugger }.send change.before).answer request
    (.ok change.body)).emit change.after

def letGo (session : Session) (stop : Stop) (request : Request) (body : Body)
    (control : Execution.Control) (refused : List Deferred) : Session :=
  let debugger := { session.debugger with control, queue := [] }
  { session with debugger := runThreads debugger stop.call.thread, stopped := none }.send
    (.response request.seq request.command (.ok body) ::
      refused.map (Debugger.refusal .released))

/-- Moves that touch neither what runs nor what was asked for. -/
inductive Aside (session : Session) : Session → Prop where
  | note (callbacks : List Callback) : Aside session (session.note callbacks)
  | finish (handle : Nat) (value : Option Bool) : Aside session (session.finish handle value)
  | discover (interpreter : Interpreter) (chunk : List UInt8) :
      Aside session (session.discover interpreter chunk)

/-- Moves of the threads of the program. A call arrives and waits until its thread may run; then it
leaves, or its thread stops. -/
inductive Advance (session : Session) : Session → Prop where
  | aside {next : Session} : Aside session next → Advance session next
  | attach (handle : Nat) : Advance session (session.attach handle).1
  | arrive (call : Call) : session.debugger.control.state ≠ .terminated →
      (∀ other ∈ session.calls, other.handle ≠ call.handle) →
      (call.thread, call.handle) ∈ session.debugger.registry.roster →
      Advance session (session.block call)
  | suspend (call : Call) : call ∈ session.blocked →
      session.debugger.control.waitUntilRunnable call.thread = none →
      Advance session (session.modifyDebugger (·.modifyThread call.thread Thread.setSuspended))
  | wake (call : Call) : call ∈ session.blocked → session.Free call →
      Advance session (session.modifyDebugger (wake · call))
  | say (call : Call) (text : OutputText) : call ∈ session.blocked → session.Free call →
      Advance session (session.emit [.output text])
  | hit (call : Call) (key : String) (line : Nat) : call ∈ session.blocked → session.Free call →
      Advance session (session.modifyDebugger fun debugger =>
        { debugger with breakpoints := (debugger.breakpoints.recordHit key line).1 })
  | leave (call : Call) (before after : List Call) : session.blocked = before ++ call :: after →
      session.Free call → (∃ line source, call.errand = .line line source) →
      Advance session { session with blocked := before ++ after }
  | stop (call : Call) (before after : List Call) (reason : Execution.StopReason)
      (exception : Option ExceptionRecord) (control : Execution.Control) :
      session.blocked = before ++ call :: after → session.Free call →
      session.debugger.control.Enters call.thread reason control →
      call.StopsFor reason exception →
      Advance session (Session.stop
        { session with
          debugger := { session.debugger with control }
          blocked := before ++ after } call reason exception)

/-- Moves of the client and of the embedding program. A request that is taken is named. -/
inductive Act (session : Session) : Option Request → Session → Prop where
  | aside {next : Session} : Aside session next → Act session none next
  | refuse (request : Request) (failure : Failure) : request.kind = .request →
      Act session (some request) (session.answer request (.error failure))
  | adjust (request : Request) (command : ControlCommand) (change : Change) :
      request.kind = .request → Command.ofName? request.command = some (.control command) →
      command.adjusts = true → session.debugger.control.isTerminated = false →
      session.debugger.carryOut command request = .ok change →
      Act session (some request) (session.apply request change)
  | start (request : Request) (command : ControlCommand) (change : Change) :
      request.kind = .request → Command.ofName? request.command = some (.control command) →
      command = .launch ∨ command = .attach → session.debugger.control.isTerminated = false →
      session.debugger.start request = .ok change →
      Act session (some request)
        ((session.apply request change).modifyDebugger (·.releaseIfReady))
  | configure (request : Request) (change : Change) :
      request.kind = .request →
      Command.ofName? request.command = some (.control .configurationDone) →
      session.debugger.control.isTerminated = false →
      session.debugger.configurationDone = .ok change →
      Act session (some request)
        ((session.apply request change).modifyDebugger (·.releaseIfReady))
  | close (request : Request) (command : ControlCommand) (exit : Bool) :
      request.kind = .request → Command.ofName? request.command = some (.control command) →
      command = .terminate ∨ command = .disconnect →
      Act session (some request) (session.apply request (session.debugger.finishSession exit))
  | defer (request : Request) (command : StoppedCommand) : request.kind = .request →
      Command.ofName? request.command = some (.stopped command) →
      session.debugger.control.isStopped none = true →
      Act session (some request) (session.defer ⟨request, command⟩)
  | evaluate (request : Request) (outcome : Except Failure Body) : request.kind = .request →
      Command.ofName? request.command = some (.stopped .evaluate) →
      Act session (some request) (session.answer request outcome)
  | decline (deferred : Deferred) (rest : List Deferred) (failure : Failure) :
      session.debugger.queue = deferred :: rest →
      Act session none ((session.modifyDebugger fun debugger => { debugger with queue := rest }).answer
        deferred.request (.error failure))
  | reply (deferred : Deferred) (rest : List Deferred) (stop : Stop) (body : Body)
      (framesFetched : Bool) :
      session.debugger.queue = deferred :: rest → session.stopped = some stop →
      deferred.command.resumption? = none →
      (deferred.command = .loadedSources → body = .sources session.debugger.sources.loaded) →
      Act session none (({ session with stopped := some { stop with framesFetched } }.modifyDebugger
        fun debugger => { debugger with queue := rest }).answer deferred.request (.ok body))
  | resume (deferred : Deferred) (rest : List Deferred) (stop : Stop) (how : Resume) (body : Body)
      (control : Execution.Control) :
      session.debugger.queue = deferred :: rest → session.stopped = some stop →
      deferred.command.resumption? = some how →
      session.debugger.control.resume stop.call.thread how.stepKind stop.call.interpreter.depth =
        some control →
      Act session none (session.letGo stop deferred.request body control rest)
  | detach (handle : Nat) (announce : Bool) : Act session none (session.detach handle announce).1
  | capture (category : Output.Category) (bytes : List UInt8)
      (attribution : Option Output.Attribution) :
      Act session none (session.capture category bytes attribution)
  | reconfigure (change : Except Config.Error Config.Store) :
      (∃ update, change = session.debugger.config.apply .runtime update) ∨
        (∃ path content, change = session.debugger.config.loadDefaults path content) →
      Act session none (session.configure change).1
  | shutdown : Act session none session.shutdown.1
  | release (stop : Stop) : session.debugger.control.state = .terminated →
      session.stopped = some stop →
      Act session none ({ session with stopped := none }.modifyDebugger
        (runThreads · stop.call.thread))
  | dismiss (call : Call) (rest : List Call) : session.debugger.control.state = .terminated →
      session.blocked = call :: rest →
      Act session none { session with blocked := rest }

inductive Acts : Session → List Request → Session → Prop where
  | refl (session : Session) : Acts session [] session
  | tail {session middle next : Session} {taken : List Request} {request : Option Request} :
      Acts session taken middle → Act middle request next →
      Acts session (taken ++ request.toList) next

abbrev Advances : Session → Session → Prop := Relation.ReflTransGen Advance

end Session
end DebugAdapter
