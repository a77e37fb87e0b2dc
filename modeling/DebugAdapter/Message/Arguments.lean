import DebugAdapter.Message.Request
import DebugAdapter.Breakpoint.Table

/-!
The arguments of each command.
-/

namespace DebugAdapter.Arguments

open Json

/-- The arguments of a request, if it has some of the right shape. -/
def read? (record : Record α) (request : Request) : Option α := do
  match record.read (← request.arguments) with
  | .ok a => return a
  | .error _ => none

structure Initialize where
  linesStartAt1 : Option Bool := none
  columnsStartAt1 : Option Bool := none

/-- The first three members and the last one are checked but not used. -/
def initialization : Record Initialize where
  title := "struct InitializeArguments"
  start := {}
  fields :=
    [.option "clientId" readString fun s _ => s,
     .option "adapterId" readString fun s _ => s,
     .option "locale" readString fun s _ => s,
     .option "linesStartAt1" readBool fun s v => { s with linesStartAt1 := v },
     .option "columnsStartAt1" readBool fun s v => { s with columnsStartAt1 := v },
     .option "pathFormat" readString fun s _ => s]

/-- Arguments that name a thread. -/
def thread : Record Nat where
  title := "struct ThreadArguments"
  start := 0
  fields := [.required "threadId" readU32 fun _ v => v]

def filters : Record (List String) where
  title := "struct SetExceptionBreakpointsArguments"
  start := []
  fields := [.default "filters" (readList readString) fun _ v => v]

structure Evaluate where
  expression : String := ""
  frame : Option Nat := none

def evaluate : Record Evaluate where
  title := "struct EvaluateArguments"
  start := {}
  fields :=
    [.required "expression" readString fun s v => { s with expression := v },
     .option "frameId" readU32 fun s v => { s with frame := v },
     .option "context" readString fun s _ => s]

structure StackTrace where
  thread : Nat := 0
  startFrame : Option Nat := none
  levels : Option Nat := none

def stackTrace : Record StackTrace where
  title := "struct StackTraceArguments"
  start := {}
  fields :=
    [.required "threadId" readU32 fun s v => { s with thread := v },
     .option "startFrame" readU32 fun s v => { s with startFrame := v },
     .option "levels" readU32 fun s v => { s with levels := v }]

structure SourceText where
  source : Option Source := none
  reference : Nat := 0

def sourceText : Record SourceText where
  title := "struct SourceArguments"
  start := {}
  fields :=
    [.option "source" Source.ofJson fun s v => { s with source := v },
     .required "sourceReference" readU32 fun s v => { s with reference := v }]

def frame : Record Nat where
  title := "struct ScopesArguments"
  start := 0
  fields := [.required "frameId" readU32 fun _ v => v]

def children : Record Nat where
  title := "struct VariablesArguments"
  start := 0
  fields := [.required "variablesReference" readU32 fun _ v => v]

structure SetVariable where
  reference : Nat := 0
  name : String := ""
  value : String := ""

def setVariable : Record SetVariable where
  title := "struct SetVariableArguments"
  start := {}
  fields :=
    [.required "variablesReference" readU32 fun s v => { s with reference := v },
     .required "name" readString fun s v => { s with name := v },
     .required "value" readString fun s v => { s with value := v }]

structure SetBreakpoints where
  source : Source := {}
  breakpoints : Option (List Breakpoint.Request) := none
  lines : Option (List Nat) := none

def setBreakpoints : Record SetBreakpoints where
  title := "struct SetBreakpointsArguments"
  start := {}
  fields :=
    [.required "source" Source.ofJson fun s v => { s with source := v },
     .option "breakpoints" (readList Breakpoint.Request.ofJson)
       fun s v => { s with breakpoints := v },
     .option "lines" (readList readU32) fun s v => { s with lines := v },
     .option "sourceModified" readBool fun s _ => s]

/-- The breakpoints asked for; lines alone are breakpoints without conditions. -/
def SetBreakpoints.requests (arguments : SetBreakpoints) : List Breakpoint.Request :=
  match arguments.breakpoints, arguments.lines with
  | some breakpoints, _ => breakpoints
  | none, some lines => lines.map fun line => { line }
  | none, none => []

/-- The settings that a launch or attach request carries. Source maps may be given as an object
from server to client paths. -/
def launchSettings (request : Request) : Members :=
  let known := ["sourceMaps", "skipFiles", "workspaceFolder", "cwd", "sourceCoding",
    "consoleCoding", "outputCapture", "exceptionFilters", "stopOnEntry"]
  match request.arguments with
  | some (.object members) =>
    (members.filter fun (key, _) => known.contains key).map fun (key, value) =>
      match value with
      | .object entries =>
        if key = "sourceMaps" then
          (key, .array (entries.map fun (server, client) => .array [.string server, client]))
        else (key, value)
      | _ => (key, value)
  | _ => []

end DebugAdapter.Arguments
