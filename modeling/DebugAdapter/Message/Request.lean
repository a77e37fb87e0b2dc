import DebugAdapter.Json.Text
import DebugAdapter.Json.Shape

/-!
Requests of the client, and how they are read from the text of a message. Only the known members
of a message are looked at; each may occur once.
-/

namespace DebugAdapter

inductive MessageKind where
  | request
  | response
  | event
  deriving DecidableEq, Repr

def MessageKind.name : MessageKind → String
  | .request => "request"
  | .response => "response"
  | .event => "event"

structure Request where
  seq : Nat
  kind : MessageKind := .request
  command : String
  arguments : Option Json := none
  deriving Inhabited

namespace Request

open Json

def kindNames : List (String × MessageKind) :=
  [("request", .request), ("response", .response), ("event", .event)]

def readKind : Reader MessageKind :=
  readName kindNames (kindNames.map (·.1))

/-- The members of a message that have been read. -/
structure Draft where
  seq : Option Nat := none
  kind : Option MessageKind := none
  command : Option String := none
  arguments : Option (Option Json) := none

/-- A value inside of a message, which is the outermost bracket itself. -/
def readWith (read : Reader α) (literal : Literal) : Option α := do
  let value ← literal.value? (maxDepth - 1)
  match read value with
  | .ok a => return a
  | .error _ => none

/-- The kind of a message; the object form names it once. -/
def kind? : Literal → Option MessageKind
  | .object (_ :: _ :: _) => none
  | literal => readWith readKind literal

def Draft.set? (draft : Draft) (key : List Piece) (literal : Literal) : Option Draft := do
  match String.ofList (← piecesText? key) with
  | "seq" =>
    if draft.seq.isSome then none
    else return { draft with seq := some (← readWith readU32 literal) }
  | "type" =>
    if draft.kind.isSome then none
    else return { draft with kind := some (← kind? literal) }
  | "command" =>
    if draft.command.isSome then none
    else return { draft with command := some (← readWith readString literal) }
  | "arguments" =>
    if draft.arguments.isSome then none
    else return { draft with arguments := some (← readWith (readOption readJson) literal) }
  | _ => return draft

def Draft.request? (draft : Draft) : Option Request := do
  return {
    seq := ← draft.seq
    kind := ← draft.kind
    command := ← draft.command
    arguments := draft.arguments.getD none }

def ofLiteral? : Literal → Option Request
  | .object members => do
    let draft ← members.foldlM (fun draft (key, literal) => draft.set? key literal) ({} : Draft)
    draft.request?
  | .array [seq, kind, command, arguments] => do
    return {
      seq := ← readWith readU32 seq
      kind := ← kind? kind
      command := ← readWith readString command
      arguments := ← readWith (readOption readJson) arguments }
  | _ => none

def ofText? (text : String) : Option Request := do
  ofLiteral? (← Literal.ofText? text)

end Request

end DebugAdapter
