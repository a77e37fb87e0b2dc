import DebugAdapter.Session.Debugger

/-!
The commands for the stopped thread. A command either fails, and then nothing has changed, or it
gives its answer and, if it resumes the thread, how.
-/

namespace DebugAdapter

open Execution (StepKind)

inductive Errand where
  | line (line : Nat) (source : Source.Resolved)
  | exception (record : ExceptionRecord)

structure Call where
  handle : Nat
  thread : Nat
  interpreter : Interpreter
  errand : Errand

/-- The call that is stopped. The frames are asked for once. -/
structure Stop where
  call : Call
  framesFetched : Bool := false

inductive Resume where
  | run
  | step (kind : StepKind)
  deriving DecidableEq, Repr

def Resume.stepKind : Resume → Option StepKind
  | .run => none
  | .step kind => some kind

structure Reply where
  debugger : Debugger
  /-- Events that come before the answer. -/
  events : List Event := []
  body : Body := .empty
  resume : Option Resume := none
  framesFetched : Bool

structure Inspected where
  callbacks : List Callback := []
  outcome : Except Failure Reply

namespace Inspected

def fail (failure : Failure) : Inspected where
  outcome := .error failure

end Inspected

namespace Debugger

/-- The reply to a request that changes nothing. -/
def reply (debugger : Debugger) (stop : Stop) (body : Body) : Reply where
  debugger := debugger
  body := body
  framesFetched := stop.framesFetched

def withArguments (record : Json.Record α) (request : Request) (answer : α → Inspected) :
    Inspected :=
  match Arguments.read? record request with
  | some arguments => answer arguments
  | none => .fail (.invalidArguments request.command)

def ask (debugger : Debugger) (stop : Stop) (callbacks : List Callback)
    (answer : Except InterpreterError α) (body : α → Body) : Inspected where
  callbacks := callbacks
  outcome :=
    match answer with
    | .ok a => .ok (debugger.reply stop (body a))
    | .error error => .error (.interpreter error)

/-- The question for the frames, unless they are there already. -/
def fetchFrames (stop : Stop) : List Callback :=
  if stop.framesFetched then [] else [.stackFrames]

def inspectThreads (debugger : Debugger) (stop : Stop) : Inspected where
  outcome := .ok <| debugger.reply stop <|
    .threads (debugger.registry.threads.map fun thread => (thread.id, thread.name))

/-- The frame with its place in the stack, in the coordinates of the client. -/
def frameView (coordinates : Coordinates) (index : Nat) (frame : Frame)
    (resolved : Option Source.Resolved) : FrameView where
  id := index
  name := frame.name
  source := resolved.map (·.source)
  line := coordinates.clientLine frame.line
  column := coordinates.clientColumn frame.column
  hint :=
    match resolved with
    | some resolved => if resolved.skipped then some .subtle else none
    | none => some .label

/-- Frames that are shown, with the sources that this resolves. -/
structure Shown where
  debugger : Debugger
  callbacks : List Callback := []
  events : List Event := []
  frames : List FrameView := []

def Shown.add (interpreter : Interpreter) (shown : Shown) (entry : Frame × Nat) : Shown :=
  let (frame, index) := entry
  let coordinates := shown.debugger.coordinates
  match frame.chunk with
  | none => { shown with frames := shown.frames ++ [frameView coordinates index frame none] }
  | some chunk =>
    let resolution := shown.debugger.resolve interpreter chunk
    { debugger := resolution.debugger
      callbacks := shown.callbacks ++ resolution.callbacks
      events := shown.events ++ resolution.events
      frames := shown.frames ++ [frameView coordinates index frame (some resolution.resolved)] }

/-- The part of the stack that is asked for; no number of levels, or zero, asks for all. -/
def selectFrames (arguments : Arguments.StackTrace) (frames : List Frame) : List (Frame × Nat) :=
  let levels := ((arguments.levels.filter (0 < ·)).getD frames.length)
  (frames.zipIdx.drop (arguments.startFrame.getD 0)).take levels

def inspectStack (debugger : Debugger) (stop : Stop) (arguments : Arguments.StackTrace) :
    Inspected :=
  if arguments.thread ≠ stop.call.thread then
    if (debugger.registry.find? arguments.thread).isNone then
      .fail (.unknownThread arguments.thread)
    else { outcome := .ok (debugger.reply stop (.stackTrace [] 0)) }
  else
    let frames := stop.call.interpreter.stackFrames
    let shown :=
      (selectFrames arguments frames).foldl (Shown.add stop.call.interpreter) { debugger }
    { callbacks := fetchFrames stop ++ shown.callbacks
      outcome := .ok {
        debugger := shown.debugger
        events := shown.events
        body := .stackTrace shown.frames frames.length
        framesFetched := true } }

def inspectSource (debugger : Debugger) (stop : Stop) (arguments : Arguments.SourceText) :
    Inspected :=
  let reference := (arguments.source.bind (·.sourceReference)).getD arguments.reference
  match debugger.sources.content? reference with
  | some text => { outcome := .ok (debugger.reply stop (.source text)) }
  | none => .fail (.unknownSource reference)

def inspectException (debugger : Debugger) (stop : Stop) (id : Nat) : Inspected :=
  match debugger.registry.find? id with
  | none => .fail (.unknownThread id)
  | some thread =>
    match thread.exception with
    | none => .fail (.noException id)
    | some record =>
      if thread.id = stop.call.thread then
        let stack := stop.call.interpreter.stackFrames.map fun frame =>
          (frame.name, debugger.coordinates.clientLine frame.line)
        { callbacks := fetchFrames stop
          outcome := .ok { debugger.reply stop (.exception record (some stack)) with
            framesFetched := true } }
      else { outcome := .ok (debugger.reply stop (.exception record none)) }

def resumeAll (debugger : Debugger) (stop : Stop) (id : Nat) : Inspected :=
  if id ≠ stop.call.thread ∧ (debugger.registry.find? id).isNone then .fail (.unknownThread id)
  else { outcome := .ok { debugger.reply stop .continued with resume := some .run } }

def step (debugger : Debugger) (stop : Stop) (kind : StepKind) (id : Nat) : Inspected :=
  if id ≠ stop.call.thread then
    if (debugger.registry.find? id).isSome then .fail (.threadNotStopped id)
    else .fail (.unknownThread id)
  else { outcome := .ok { debugger.reply stop .empty with resume := some (.step kind) } }

def inspect (debugger : Debugger) (stop : Stop) (deferred : Deferred) : Inspected :=
  let request := deferred.request
  let interpreter := stop.call.interpreter
  match deferred.command with
  | .threads => debugger.inspectThreads stop
  | .stackTrace => withArguments Arguments.stackTrace request (debugger.inspectStack stop)
  | .source => withArguments Arguments.sourceText request (debugger.inspectSource stop)
  | .scopes =>
    withArguments Arguments.frame request fun frame =>
      debugger.ask stop [.scopes frame] (interpreter.scopes frame) .scopes
  | .children =>
    withArguments Arguments.children request fun reference =>
      debugger.ask stop [.children reference] (interpreter.children reference) .children
  | .setVariable =>
    withArguments Arguments.setVariable request fun arguments =>
      match interpreter.setVariable with
      | some set =>
        debugger.ask stop [.setVariable arguments.reference arguments.name arguments.value]
          (set arguments.reference arguments.name arguments.value) .assigned
      | none => .fail (.interpreter (.unsupported "setVariable"))
  | .evaluate =>
    withArguments Arguments.evaluate request fun arguments =>
      debugger.ask stop [.evaluate arguments.expression arguments.frame]
        (interpreter.evaluate arguments.expression arguments.frame) .evaluation
  | .exceptionInfo => withArguments Arguments.thread request (debugger.inspectException stop)
  | .loadedSources => { outcome := .ok (debugger.reply stop (.sources debugger.sources.loaded)) }
  | .continue_ => withArguments Arguments.thread request (debugger.resumeAll stop)
  | .next => withArguments Arguments.thread request (debugger.step stop .over)
  | .stepIn => withArguments Arguments.thread request (debugger.step stop .into)
  | .stepOut => withArguments Arguments.thread request (debugger.step stop .out)

end Debugger

end DebugAdapter
