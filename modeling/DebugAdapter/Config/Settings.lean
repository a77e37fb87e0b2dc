import DebugAdapter.Json.Shape
import DebugAdapter.Text.Encoding

/-!
The settings of a debug session and their form as JSON.
-/

namespace DebugAdapter.Config

/-- A way in which the debugged program writes, that can be shown to the client. -/
inductive Capture where
  | print
  | stdout
  | stderr
  deriving DecidableEq, Repr

structure Settings where
  sourceMaps : List (String × String) := []
  skipFiles : List String := []
  workspaceFolder : Option String := none
  cwd : Option String := none
  sourceCoding : Text.Encoding := .utf8
  consoleCoding : Text.Encoding := .utf8
  outputCapture : List Capture := []
  exceptionFilters : List String := ["error"]
  stopOnEntry : Bool := false
  deriving DecidableEq, Repr, Inhabited

def codingNames : List (String × Text.Encoding) :=
  [("none", .utf8), ("utf-8", .utf8), ("utf8", .utf8),
   ("ansi", .ansi), ("cp1252", .ansi), ("windows-1252", .ansi)]

def readCoding : Json.Reader Text.Encoding :=
  Json.readName codingNames (codingNames.map (·.1))

def captureNames : List (String × Capture) :=
  [("print", .print), ("stdout", .stdout), ("stderr", .stderr)]

def readCapture : Json.Reader Capture :=
  Json.readName captureNames (captureNames.map (·.1))

def Capture.name : Capture → String
  | .print => "print"
  | .stdout => "stdout"
  | .stderr => "stderr"

namespace Settings

open Json

def record : Record Settings where
  title := "struct DebugConfig"
  start := {}
  fields :=
    [.default "sourceMaps" (readList (readPair readString readString))
       fun s v => { s with sourceMaps := v },
     .default "skipFiles" (readList readString) fun s v => { s with skipFiles := v },
     .default "workspaceFolder" (readOption readString)
       fun s v => { s with workspaceFolder := v },
     .default "cwd" (readOption readString) fun s v => { s with cwd := v },
     .default "sourceCoding" readCoding fun s v => { s with sourceCoding := v },
     .default "consoleCoding" readCoding fun s v => { s with consoleCoding := v },
     .default "outputCapture" (readList readCapture) fun s v => { s with outputCapture := v },
     .default "exceptionFilters" (readList readString)
       fun s v => { s with exceptionFilters := v },
     .default "stopOnEntry" readBool fun s v => { s with stopOnEntry := v }]

def ofJson : Reader Settings := record.read

def toJson (settings : Settings) : Json :=
  ofMembers
    [("sourceMaps",
       Json.ofList (fun (server, client) => .array [.string server, .string client])
         settings.sourceMaps),
     ("skipFiles", Json.ofList .string settings.skipFiles),
     ("workspaceFolder", Json.ofOption .string settings.workspaceFolder),
     ("cwd", Json.ofOption .string settings.cwd),
     ("sourceCoding", .string settings.sourceCoding.name),
     ("consoleCoding", .string settings.consoleCoding.name),
     ("outputCapture", Json.ofList (fun capture => .string capture.name) settings.outputCapture),
     ("exceptionFilters", Json.ofList .string settings.exceptionFilters),
     ("stopOnEntry", .bool settings.stopOnEntry)]

def captures (settings : Settings) (capture : Capture) : Bool :=
  settings.outputCapture.contains capture

end Settings

end DebugAdapter.Config
