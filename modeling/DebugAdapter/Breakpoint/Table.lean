import DebugAdapter.Breakpoint.HitCondition
import DebugAdapter.Breakpoint.LogMessage
import DebugAdapter.Source.Basic

/-!
The breakpoints that are installed, by the key of their source and by their line.
-/

namespace DebugAdapter.Breakpoint

structure Request where
  line : Nat
  column : Option Nat := none
  condition : Option String := none
  hitCondition : Option String := none
  logMessage : Option String := none
  deriving DecidableEq, Repr, Inhabited

namespace Request

open Json

def record : Record Request where
  title := "struct SourceBreakpoint"
  start := { line := 0 }
  fields :=
    [.required "line" readU32 fun s v => { s with line := v },
     .option "column" readU32 fun s v => { s with column := v },
     .option "condition" readString fun s v => { s with condition := v },
     .option "hitCondition" readString fun s v => { s with hitCondition := v },
     .option "logMessage" readString fun s v => { s with logMessage := v }]

def ofJson : Reader Request := record.read

end Request

inductive Fault where
  | line
  | hitCondition (text : String)
  | logMessage (fault : LogMessageFault)
  deriving DecidableEq, Repr

def Fault.message : Fault → String
  | .line => "line must be positive"
  | .hitCondition text => "invalid hit condition '" ++ text ++ "'"
  | .logMessage fault => fault.message

structure Action where
  condition : Option String
  hitCondition : Option HitCondition
  logMessage : Option (List Fragment)
  deriving DecidableEq, Repr

structure LineBreakpoint where
  id : Nat
  line : Nat
  action : Action
  hits : Nat := 0
  deriving DecidableEq, Repr

structure Report where
  id : Option Nat
  message : Option String
  source : Source
  line : Nat
  deriving DecidableEq, Repr

/-- A breakpoint that was installed has an identifier. -/
def Report.verified (report : Report) : Bool :=
  report.id.isSome

namespace Report

open Json

def toJson (report : Report) : Json :=
  ofMembers <|
    member? "id" ofNat report.id
      ++ [("verified", .bool report.verified)]
      ++ member? "message" .string report.message
      ++ [("source", report.source.toJson), ("line", ofNat report.line)]

end Report

namespace Request

def nonblank (text : Option String) : Option String :=
  (text.map Text.trimmed).filter (· ≠ "")

def parseHitCondition (request : Request) : Except Fault (Option HitCondition) :=
  match nonblank request.hitCondition with
  | none => .ok none
  | some text =>
    match HitCondition.parse? text with
    | some condition => .ok (some condition)
    | none => .error (.hitCondition text)

def parseLogMessage (request : Request) : Except Fault (Option (List Fragment)) :=
  match request.logMessage with
  | none => .ok none
  | some template =>
    match LogMessage.parse template with
    | .ok fragments => .ok (some fragments)
    | .error fault => .error (.logMessage fault)

def action (request : Request) : Except Fault Action := do
  if request.line = 0 then throw .line
  let hitCondition ← request.parseHitCondition
  let logMessage ← request.parseLogMessage
  return { condition := nonblank request.condition, hitCondition, logMessage }

end Request

/-- The breakpoints of one source in ascending order of their lines, one on a line. -/
abbrev Lines := List LineBreakpoint

namespace Lines

def find? (line : Nat) (lines : Lines) : Option LineBreakpoint :=
  List.find? (fun breakpoint => breakpoint.line = line) lines

def insert (breakpoint : LineBreakpoint) : Lines → Lines
  | [] => [breakpoint]
  | first :: rest =>
    if first.line < breakpoint.line then first :: insert breakpoint rest
    else breakpoint :: first :: rest

end Lines

structure Table where
  sources : List (String × Lines) := []
  nextId : Nat := 0
  deriving Inhabited

namespace Table

def lines (table : Table) (key : String) : Lines :=
  (table.sources.lookup key).getD []

def get? (table : Table) (key : String) (line : Nat) : Option LineBreakpoint :=
  (table.lines key).find? line

def contains (table : Table) (key : String) (line : Nat) : Bool :=
  (table.get? key line).isSome

/-- The breakpoints of one source as they are put together: the lines so far, the last identifier
given, and the reports. -/
structure Draft where
  lines : Lines := []
  nextId : Nat
  reports : List Report := []

/-- Takes one request. A request that is valid takes an identifier; of several on one line the
first is installed, and all report it. -/
def Draft.add (source : Source) (draft : Draft) (request : Request) : Draft :=
  match request.action with
  | .error fault =>
    { draft with
      reports := draft.reports ++ [⟨none, some fault.message, source, request.line⟩] }
  | .ok action =>
    let id := draft.nextId + 1
    match draft.lines.find? request.line with
    | some installed =>
      { draft with
        nextId := id
        reports := draft.reports ++ [⟨some installed.id, none, source, request.line⟩] }
    | none =>
      { lines := draft.lines.insert { id, line := request.line, action }
        nextId := id
        reports := draft.reports ++ [⟨some id, none, source, request.line⟩] }

def setLines (sources : List (String × Lines)) (key : String) (lines : Lines) :
    List (String × Lines) :=
  let others := sources.filter (·.1 ≠ key)
  if lines.isEmpty then others else (key, lines) :: others

/-- Replaces all breakpoints of one source and reports on each request in order. -/
def replace (table : Table) (key : String) (source : Source) (requests : List Request) :
    Table × List Report :=
  let draft := requests.foldl (Draft.add source) { nextId := table.nextId }
  ({ sources := setLines table.sources key draft.lines, nextId := draft.nextId }, draft.reports)

def maxHits : Nat := Word.limit64 - 1

/-- Counts a hit of the breakpoint on a line, and returns the new count. -/
def recordHit (table : Table) (key : String) (line : Nat) : Table × Nat :=
  match table.get? key line with
  | none => (table, 0)
  | some breakpoint =>
    let hits := min (breakpoint.hits + 1) maxHits
    let count (other : LineBreakpoint) :=
      if other.line = line then { other with hits } else other
    ({ table with
        sources := table.sources.map fun (k, lines) =>
          if k = key then (k, lines.map count) else (k, lines) },
     hits)

def installed (table : Table) (key : String) (source : Source) : List Report :=
  (table.lines key).map fun breakpoint => ⟨some breakpoint.id, none, source, breakpoint.line⟩

def clear (table : Table) : Table :=
  { table with sources := [] }

end Table

end DebugAdapter.Breakpoint
