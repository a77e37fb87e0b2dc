import DebugAdapter.Config.Document
import DebugAdapter.Execution.Control
import DebugAdapter.Message.Arguments
import DebugAdapter.Message.Body
import DebugAdapter.Message.Command
import DebugAdapter.Session.Coordinates
import DebugAdapter.Source.Cache

/-!
The state of a debugger and the changes that several requests and calls have in common: a new
configuration, captured output, the resolution of chunks, and the end of the session. A change
returns the new state and the messages that go with it, in order.
-/

namespace DebugAdapter

structure Deferred where
  request : Request
  command : StoppedCommand

structure Debugger where
  control : Execution.Control := {}
  registry : Registry := {}
  breakpoints : Breakpoint.Table := {}
  sources : Source.Cache := {}
  config : Config.Store := {}
  mapping : Path.Mapping := {}
  exceptionFilters : List String := ["error"]
  output : Output.Pipeline := {}
  coordinates : Coordinates := {}
  initialized : Bool := false
  configured : Bool := false
  launched : Bool := false
  stopOnEntry : Bool := false
  capturePrint : Bool := false
  /-- Whether the client has chosen exception filters itself. -/
  clientFilters : Bool := false
  redirected : List Output.Category := []
  queue : List Deferred := []
  deriving Inhabited

namespace Debugger

def isTerminated (debugger : Debugger) : Bool :=
  debugger.control.isTerminated

def chunkEvent (debugger : Debugger) (chunk : Output.Chunk) : Event :=
  .output {
    text := chunk.run.text
    category := chunk.category
    source := chunk.attribution.map (·.source)
    line := chunk.attribution.map fun place => debugger.coordinates.clientLine place.line
    style := chunk.run.style }

def consoleEvent (text : String) : Event :=
  .output {
    text := if text.toList.getLast? = some '\n' then text else text ++ "\n"
    category := .console }

def flushOutput (debugger : Debugger) : Debugger × List Event :=
  let (output, chunks) := debugger.output.flush debugger.mapping.consoleCoding
  ({ debugger with output }, chunks.map debugger.chunkEvent)

/-- Feeds output to the client; after the end of the session it is dropped. -/
def capture (debugger : Debugger) (category : Output.Category) (bytes : List UInt8)
    (attribution : Option Output.Attribution) : Debugger × List Event :=
  if debugger.isTerminated then (debugger, [])
  else
    let (output, chunks) :=
      debugger.output.capture category bytes debugger.mapping.consoleCoding attribution
    ({ debugger with output }, chunks.map debugger.chunkEvent)

/-- Takes over a new configuration, and tells which sources have moved. Exception filters that the
client has chosen stay. -/
def reconfigure (debugger : Debugger) (config : Config.Store) : Debugger × List Event :=
  let (sources, moved) := debugger.sources.remap config.mapping
  ({ debugger with
      config, sources
      mapping := config.mapping
      exceptionFilters :=
        if debugger.clientFilters then debugger.exceptionFilters
        else config.settings.exceptionFilters },
    moved.map fun resolved => .loadedSource .changed resolved.source)

def maxNameLength : Nat := 48

/-- The name of a chunk that is not a file: what follows an equals sign, or its first line. -/
def virtualName (coding : Text.Encoding) (chunk : List UInt8) : String :=
  match coding.decodeChars chunk with
  | '=' :: name => .ofList name
  | text =>
    let first := Text.trim (text.takeWhile (· ≠ '\n'))
    if maxNameLength < first.length then .ofList (first.take maxNameLength ++ ['.', '.', '.'])
    else if first.isEmpty then "<chunk>"
    else .ofList first

structure Resolution where
  debugger : Debugger
  resolved : Source.Resolved
  callbacks : List Callback := []
  events : List Event := []

def originOf (debugger : Debugger) (interpreter : Interpreter) (chunk : List UInt8) :
    Source.Origin × List Callback :=
  match Source.Origin.file? debugger.mapping chunk with
  | some origin => (origin, [])
  | none =>
    let coding := debugger.mapping.sourceCoding
    let name := virtualName coding chunk
    match interpreter.chunkCode with
    | none => (.virtual name "", [])
    | some code => (.virtual name (((code chunk).map coding.decode).getD ""), [.chunkCode chunk])

def resolve (debugger : Debugger) (interpreter : Interpreter) (chunk : List UInt8) :
    Resolution :=
  match debugger.sources.find? chunk with
  | some resolved => { debugger, resolved }
  | none =>
    let (origin, callbacks) := debugger.originOf interpreter chunk
    let (sources, resolved, created) := debugger.sources.register chunk origin
    { debugger := { debugger with sources }
      resolved, callbacks
      events := if created then [.loadedSource .new resolved.source] else [] }

def attach (debugger : Debugger) (handle : Nat) : Debugger × Thread × List Event :=
  let (registry, thread, created) := debugger.registry.attach handle
  ({ debugger with registry }, thread,
    if created && !debugger.isTerminated then [.thread .started thread.id] else [])

def detach (debugger : Debugger) (handle : Nat) (announce : Bool) :
    Option (Debugger × List Event) :=
  (debugger.registry.detach handle).map fun (registry, thread) =>
    let control := (debugger.control.abandonStep thread.id).getD debugger.control
    ({ debugger with registry, control }, if announce then [.thread .exited thread.id] else [])

def modifyThread (debugger : Debugger) (id : Nat) (change : Thread → Thread) : Debugger :=
  { debugger with registry := debugger.registry.modify id change }

def refusal (failure : Failure) (deferred : Deferred) : Message :=
  .response deferred.request.seq deferred.request.command (.error failure)

/-- Ends the session: deferred requests are refused, threads forgotten, streams given back and
pending output sent. The flag is true the first time. -/
def teardown (debugger : Debugger) : Debugger × List Message × Bool :=
  let (debugger, refused, first) :=
    match debugger.control.terminate with
    | some control =>
      ({ debugger with control, queue := [] }, debugger.queue.map (refusal .terminated), true)
    | none => (debugger, [], false)
  let debugger := { debugger with registry := debugger.registry.detachAll.1, redirected := [] }
  let (debugger, events) := debugger.flushOutput
  ({ debugger with output := debugger.output.reset }, refused ++ events.map .event, first)

/-- Lets the program run once a launch and the end of the configuration have been received. -/
def releaseIfReady (debugger : Debugger) : Debugger :=
  if debugger.configured && debugger.launched then
    match debugger.control.configurationDone debugger.stopOnEntry with
    | some control => { debugger with control }
    | none => debugger
  else debugger

end Debugger

end DebugAdapter
