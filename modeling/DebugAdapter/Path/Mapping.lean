import DebugAdapter.Path.SourceMap
import DebugAdapter.Config.Settings

/-!
The mapping between chunk names, paths of the debugged program ("server") and paths of the client,
as the settings give it.
-/

namespace DebugAdapter.Path

open Text

structure Mapping where
  /-- Most specific first; equally specific ones in the order of the settings. -/
  rules : List Rule := []
  skip : List Glob.Pattern := []
  workspaceFolder : Option (List Char) := none
  cwd : Option (List Char) := none
  sourceCoding : Encoding := .utf8
  consoleCoding : Encoding := .utf8
  deriving DecidableEq, Repr, Inhabited

namespace Mapping

def moreSpecific (a b : Rule) : Bool :=
  b.specificity ≤ a.specificity

def nonblankPath (path : Option String) : Option (List Char) :=
  (path.map fun p => normal p.toList).filter (!·.isEmpty)

def parseRule (pair : String × String) : Except Config.Error Rule :=
  match Rule.parse pair.1.toList pair.2.toList with
  | .ok rule => .ok rule
  | .error fault => .error (.sourceMap pair.1 fault)

def compileSkip (pattern : String) : Except Config.Error Glob.Pattern :=
  match Glob.compile (normal pattern.toList) with
  | .ok compiled => .ok compiled
  | .error fault => .error (.skipPattern pattern fault)

def ofSettings (settings : Config.Settings) : Except Config.Error Mapping := do
  let rules ← settings.sourceMaps.mapM parseRule
  let skip ← settings.skipFiles.mapM compileSkip
  return {
    rules := rules.mergeSort moreSpecific
    skip
    workspaceFolder := nonblankPath settings.workspaceFolder
    cwd := nonblankPath settings.cwd
    sourceCoding := settings.sourceCoding
    consoleCoding := settings.consoleCoding }

/-- Puts a relative path under the working directory, if there is one. -/
def absolutize (mapping : Mapping) (path : List Char) : List Char :=
  match mapping.cwd with
  | some cwd =>
    if isAbsolute path then path else normal (trimEndOf '/' cwd ++ '/' :: path)
  | none => path

def serverToClientChars (mapping : Mapping) (server : List Char) : List Char :=
  let server := normal server
  match mapping.rules.findSome? (·.toClient? server) with
  | some mapped => normal mapped
  | none => server

/-- A chunk that was loaded from a file is named `@` and the path of the file. -/
def sourceToServerChars (mapping : Mapping) : List UInt8 → Option (List Char)
  | 0x40 :: name =>
    let path := normal (mapping.sourceCoding.decodeChars name)
    if path.isEmpty then none else some (mapping.absolutize path)
  | _ => none

def clientRelativeChars (mapping : Mapping) (client : List Char) : List Char :=
  match mapping.workspaceFolder with
  | none => client
  | some folder =>
    match afterPrefix? folder client with
    | none => client
    | some rest =>
      let rest := trimStartOf '/' rest
      if rest.isEmpty then client else rest

def isSkippedChars (mapping : Mapping) (server client : List Char) : Bool :=
  !mapping.skip.isEmpty &&
    let relative := mapping.clientRelativeChars client
    mapping.skip.any fun pattern =>
      pattern.matches client || pattern.matches server || pattern.matches relative

/-- Splits at the first `:digits:` that is not at the start; `seen` is what stands before, in
reverse. -/
def splitLocationFrom (seen : List Char) :
    List Char → Option (List Char × List Char × List Char)
  | [] => none
  | c :: rest =>
    if c = ':' ∧ seen ≠ [] then
      match rest.takeWhile Char.isDigit, rest.dropWhile Char.isDigit with
      | d :: digits, ':' :: after => some (seen.reverse, d :: digits, after)
      | _, _ => splitLocationFrom (c :: seen) rest
    else splitLocationFrom (c :: seen) rest

/-- File, line number and text of a message that starts with its place. -/
def splitLocation (text : List Char) : Option (List Char × List Char × List Char) :=
  splitLocationFrom [] text

/-- Maps the file named by a message line that starts with its place. -/
def mapLine (mapping : Mapping) (line : List Char) : List Char :=
  match splitLocation (trimStart line) with
  | some (file, number, rest) =>
    if startsWith '[' file then line
    else
      let client := mapping.serverToClientChars (mapping.absolutize (normal file))
      indentation line ++ client ++ ':' :: number ++ ':' :: rest
  | none => line

def exceptionMessageChars (mapping : Mapping) (message : List Char) : List Char :=
  join '\n' ((split '\n' message).map mapping.mapLine)

def sourceToServer (mapping : Mapping) (chunk : List UInt8) : Option String :=
  (mapping.sourceToServerChars chunk).map .ofList

def serverToClient (mapping : Mapping) (server : String) : String :=
  .ofList (mapping.serverToClientChars server.toList)

def sourceToClient (mapping : Mapping) (chunk : List UInt8) : Option String :=
  (mapping.sourceToServer chunk).map mapping.serverToClient

def clientRelative (mapping : Mapping) (client : String) : String :=
  .ofList (mapping.clientRelativeChars client.toList)

def isSkipped (mapping : Mapping) (server client : String) : Bool :=
  mapping.isSkippedChars server.toList client.toList

def exceptionMessage (mapping : Mapping) (message : String) : String :=
  .ofList (mapping.exceptionMessageChars message.toList)

end Mapping

end DebugAdapter.Path
