/-!
The commands of the client. Some are carried out at once in any state; the others are answered by
the interpreter, on the thread that is stopped.
-/

namespace DebugAdapter

inductive ControlCommand where
  | handshake
  | launch
  | attach
  | setBreakpoints
  | setExceptionBreakpoints
  | configurationDone
  | pause
  | terminate
  | disconnect
  deriving DecidableEq, Repr

/-- Commands for the stopped thread. -/
inductive StoppedCommand where
  | threads
  | stackTrace
  | source
  | scopes
  | children
  | setVariable
  | evaluate
  | exceptionInfo
  | loadedSources
  | continue_
  | next
  | stepIn
  | stepOut
  deriving DecidableEq, Repr

inductive Command where
  | control (command : ControlCommand)
  | stopped (command : StoppedCommand)
  deriving DecidableEq, Repr

namespace Command

def table : List (String × Command) :=
  [("initialize", .control .handshake),
   ("launch", .control .launch),
   ("attach", .control .attach),
   ("setBreakpoints", .control .setBreakpoints),
   ("setExceptionBreakpoints", .control .setExceptionBreakpoints),
   ("configurationDone", .control .configurationDone),
   ("pause", .control .pause),
   ("terminate", .control .terminate),
   ("disconnect", .control .disconnect),
   ("threads", .stopped .threads),
   ("stackTrace", .stopped .stackTrace),
   ("source", .stopped .source),
   ("scopes", .stopped .scopes),
   ("variables", .stopped .children),
   ("setVariable", .stopped .setVariable),
   ("evaluate", .stopped .evaluate),
   ("exceptionInfo", .stopped .exceptionInfo),
   ("loadedSources", .stopped .loadedSources),
   ("continue", .stopped .continue_),
   ("next", .stopped .next),
   ("stepIn", .stopped .stepIn),
   ("stepOut", .stopped .stepOut)]

def ofName? (name : String) : Option Command :=
  table.lookup name

/-- Commands that are accepted even when the session is over. -/
def endsSession : Command → Bool
  | .control .terminate | .control .disconnect => true
  | _ => false

end Command

end DebugAdapter
