import DebugAdapter.Breakpoint.Table
import DebugAdapter.Config.Error
import DebugAdapter.Interpreter
import DebugAdapter.Output.Pipeline
import DebugAdapter.Thread.Registry

/-!
Messages to the client: answers to requests and events, and their form as JSON. A message gets
its number when it is delivered.
-/

namespace DebugAdapter

open Execution (StopReason)

inductive Failure where
  | unknownCommand (command : String)
  | terminated
  | notStopped (command : String)
  | invalidArguments (command : String)
  | alreadyInitialized
  | alreadyStarted
  | alreadyConfigured
  | startFailed (command : String) (error : Config.Error)
  | config (error : Config.Error)
  | noSource
  | unknownThread (id : Nat)
  | threadNotStopped (id : Nat)
  | noException (id : Nat)
  | unknownSource (reference : Nat)
  | interpreter (error : InterpreterError)
  | released
  deriving DecidableEq, Repr

def Failure.message : Failure → String
  | .unknownCommand command => "unknown command '" ++ command ++ "'"
  | .terminated => "debug session has terminated"
  | .notStopped command => "'" ++ command ++ "' is only valid while stopped"
  | .invalidArguments command => "invalid " ++ command ++ " args"
  | .alreadyInitialized => "initialize was already received"
  | .alreadyStarted => "a launch or attach request was already received"
  | .alreadyConfigured => "configurationDone was already received"
  | .startFailed command error => command ++ " failed: " ++ error.message
  | .config error => error.message
  | .noSource => "source has neither a path nor a sourceReference"
  | .unknownThread id => "unknown thread " ++ toString id
  | .threadNotStopped id => "thread " ++ toString id ++ " is not stopped"
  | .noException id => "thread " ++ toString id ++ " is not stopped on an exception"
  | .unknownSource reference => "unknown source reference " ++ toString reference
  | .interpreter error => error.message
  | .released => "thread is no longer stopped"

/-- How a frame is to be shown: less prominent, or without a source. -/
inductive FrameHint where
  | subtle
  | label
  deriving DecidableEq, Repr

structure FrameView where
  id : Nat
  name : String
  source : Option Source
  line : Nat
  column : Nat
  hint : Option FrameHint
  deriving DecidableEq, Repr

/-- What a successful answer holds. -/
inductive Body where
  | empty
  | capabilities
  | breakpoints (reports : List Breakpoint.Report)
  | continued
  | threads (threads : List (Nat × String))
  | stackTrace (frames : List FrameView) (total : Nat)
  | source (text : String)
  | scopes (scopes : List Scope)
  | children (items : List Variable)
  | assigned (entry : Variable)
  | evaluation (evaluation : Evaluation)
  | exception (record : ExceptionRecord) (stack : Option (List (String × Nat)))
  | sources (sources : List Source)
  deriving DecidableEq, Repr

inductive LoadReason where
  | new
  | changed
  deriving DecidableEq, Repr

inductive ThreadReason where
  | started
  | exited
  deriving DecidableEq, Repr

/-- Text for the client, with the place in its coordinates from which it comes. -/
structure OutputText where
  text : String
  category : Output.Category
  source : Option Source := none
  line : Option Nat := none
  style : Output.Style := {}
  deriving DecidableEq, Repr

inductive Event where
  | initialized
  | stopped (thread : Nat) (reason : StopReason) (exception : Option ExceptionRecord)
  | terminated
  | thread (reason : ThreadReason) (id : Nat)
  | output (output : OutputText)
  | loadedSource (reason : LoadReason) (source : Source)
  deriving DecidableEq, Repr

inductive Message where
  | response (seq : Nat) (command : String) (outcome : Except Failure Body)
  | event (event : Event)

namespace Body

open Json

def capabilityNames : List String :=
  ["supportsConfigurationDoneRequest", "supportsConditionalBreakpoints",
   "supportsHitConditionalBreakpoints", "supportsLogPoints", "supportsEvaluateForHovers",
   "supportsSetVariable", "supportsExceptionInfoRequest", "supportsLoadedSourcesRequest",
   "supportsDelayedStackTraceLoading", "supportsTerminateRequest"]

def exceptionFilter (filter label : String) (default : Bool) : Json :=
  ofMembers [("filter", .string filter), ("label", .string label), ("default", .bool default)]

def capabilitiesJson : Json :=
  ofMembers <|
    ("exceptionBreakpointFilters", .array
      [exceptionFilter "error" "Uncaught Exceptions" true,
       exceptionFilter "caught" "Caught Exceptions" false])
    :: capabilityNames.map fun name => (name, .bool true)

def frameJson (frame : FrameView) : Json :=
  let hint : FrameHint → Json
    | .subtle => .string "subtle"
    | .label => .string "label"
  ofMembers <|
    [("id", ofNat frame.id), ("name", .string frame.name), ("line", ofNat frame.line),
     ("column", ofNat frame.column)]
      ++ member? "source" Source.toJson frame.source
      ++ member? "presentationHint" hint frame.hint

def scopeJson (scope : Scope) : Json :=
  ofMembers
    [("name", .string scope.name), ("variablesReference", ofNat scope.reference),
     ("expensive", .bool scope.expensive)]

def valueMembers (key value : String) (type? : Option String) (reference : Nat) :
    List (String × Json) :=
  [(key, .string value), ("variablesReference", ofNat reference)]
    ++ member? "type" .string type?

def variableJson (entry : Variable) : Json :=
  ofMembers <|
    ("name", .string entry.name) :: valueMembers "value" entry.value entry.type? entry.reference

/-- Exceptions that nothing handles break always; the others only on demand. -/
def breakMode (record : ExceptionRecord) : String :=
  if record.fatal || record.kind = "error" then "unhandled" else "always"

def stackText (stack : List (String × Nat)) : String :=
  "\n".intercalate (stack.map fun (name, line) => name ++ " (line " ++ toString line ++ ")")

def exceptionJson (record : ExceptionRecord) (stack : Option (List (String × Nat))) : Json :=
  ofMembers
    [("exceptionId", .string record.kind), ("description", .string record.message),
     ("breakMode", .string (breakMode record)),
     ("details", ofMembers <|
       ("message", .string record.message)
         :: member? "stackTrace" (fun stack => .string (stackText stack)) stack)]

def toJson? : Body → Option Json
  | .empty => none
  | .capabilities => some capabilitiesJson
  | .breakpoints reports =>
    some (.object [("breakpoints", Json.ofList Breakpoint.Report.toJson reports)])
  | .continued => some (.object [("allThreadsContinued", .bool true)])
  | .threads items =>
    some (.object [("threads", Json.ofList
      (fun (id, name) => ofMembers [("id", ofNat id), ("name", .string name)]) items)])
  | .stackTrace frames total =>
    some (ofMembers
      [("stackFrames", Json.ofList frameJson frames), ("totalFrames", ofNat total)])
  | .source text => some (.object [("content", .string text)])
  | .scopes items => some (.object [("scopes", Json.ofList scopeJson items)])
  | .children items => some (.object [("variables", Json.ofList variableJson items)])
  | .assigned entry =>
    some (ofMembers (valueMembers "value" entry.value entry.type? entry.reference))
  | .evaluation result =>
    some (ofMembers (valueMembers "result" result.value result.type? result.reference))
  | .exception record stack => some (exceptionJson record stack)
  | .sources items => some (.object [("sources", Json.ofList Source.toJson items)])

end Body

namespace Event

open Json

def name : Event → String
  | .initialized => "initialized"
  | .stopped .. => "stopped"
  | .terminated => "terminated"
  | .thread .. => "thread"
  | .output .. => "output"
  | .loadedSource .. => "loadedSource"

/-- A stop on an exception says so, and shows its message. -/
def stopText (record : ExceptionRecord) : List (String × Json) :=
  [("description", .string (if record.fatal then "Paused on panic" else "Paused on exception")),
   ("text", .string record.message)]

def outputJson (output : OutputText) : Json :=
  ofMembers <|
    [("output", .string output.text), ("category", .string output.category.name)]
      ++ member? "source" Source.toJson output.source
      ++ member? "line" ofNat output.line
      ++ member? "data" id output.style.toJson?

def toJson? : Event → Option Json
  | .initialized => none
  | .terminated => some (.object [])
  | .stopped id reason exception =>
    some (ofMembers <|
      [("reason", .string reason.name), ("threadId", ofNat id),
       ("allThreadsStopped", .bool true)]
        ++ (exception.map stopText).getD [])
  | .thread reason id =>
    let text := match reason with | .started => "started" | .exited => "exited"
    some (ofMembers [("reason", .string text), ("threadId", ofNat id)])
  | .output content => some (outputJson content)
  | .loadedSource reason source =>
    let text := match reason with | .new => "new" | .changed => "changed"
    some (ofMembers [("reason", .string text), ("source", source.toJson)])

end Event

namespace Message

open Json

def members : Message → List (String × Json)
  | .response seq command outcome =>
    [("type", .string "response"), ("request_seq", ofNat seq), ("command", .string command)]
      ++ match outcome with
        | .ok body => ("success", .bool true) :: member? "body" id body.toJson?
        | .error failure =>
          [("success", .bool false), ("message", .string failure.message)]
  | .event content =>
    [("type", .string "event"), ("event", .string content.name)]
      ++ member? "body" id content.toJson?

/-- The message with its number in the order of delivery. -/
def toJson (seq : Nat) (message : Message) : Json :=
  ofMembers (("seq", ofNat seq) :: message.members)

end Message

end DebugAdapter
