import DebugAdapter.Path.Normal
import DebugAdapter.Config.Error

/-!
Rules that map paths of the debugged program to paths of the client: a directory prefix, or a
pattern with one star on either side.
-/

namespace DebugAdapter.Path

open Text

def afterPrefix? (pre path : List Char) : Option (List Char) :=
  match pre.isPrefixOf? path with
  | some rest =>
    if endsWith '/' pre || rest.isEmpty || startsWith '/' rest then some rest else none
  | none => none

def joinMapped (head rest : List Char) : List Char :=
  if rest.isEmpty then head
  else
    match endsWith '/' head, startsWith '/' rest with
    | true, true => head ++ rest.tail
    | false, false => head ++ '/' :: rest
    | _, _ => head ++ rest

inductive Rule where
  | directory (server client : List Char)
  | wildcard (serverHead serverTail clientHead clientTail : List Char)
  deriving DecidableEq, Repr

namespace Rule

def parse (server client : List Char) : Except Config.MapFault Rule :=
  let server := normal server
  let client := normal client
  if server.isEmpty then .error .emptyServer
  else if client.isEmpty then .error .emptyClient
  else if 1 < server.count '*' ∨ 1 < client.count '*' then .error .manyStars
  else if server.count '*' ≠ client.count '*' then .error .starOnOneSide
  else
    match splitFirst? ['*'] server, splitFirst? ['*'] client with
    | some (serverHead, serverTail), some (clientHead, clientTail) =>
      .ok (.wildcard serverHead serverTail clientHead clientTail)
    | _, _ => .ok (.directory server client)

/-- The number of literal bytes of the server's side. -/
def specificity : Rule → Nat
  | .directory server _ => byteLength server
  | .wildcard head tail _ _ => byteLength head + byteLength tail

/-- The text that the star stands for, up to the first place where the tail occurs, and the path
after the tail. -/
def capture? (tail rest : List Char) : Option (List Char × List Char) :=
  if tail.isEmpty then some (rest, [])
  else
    match splitFirst? tail rest with
    | some (captured, after) =>
      if endsWith '/' tail || after.isEmpty || startsWith '/' after then some (captured, after)
      else none
    | none => none

def toClient? (path : List Char) : Rule → Option (List Char)
  | .directory server client => (afterPrefix? server path).map (joinMapped client)
  | .wildcard serverHead serverTail clientHead clientTail => do
    let rest ← serverHead.isPrefixOf? path
    let (captured, remainder) ← capture? serverTail rest
    return joinMapped (clientHead ++ captured ++ clientTail) remainder

end Rule

end DebugAdapter.Path
