import DebugAdapter.Text.Blank
import DebugAdapter.Text.Split

/-!
Normal forms of paths. A path is read into its drive, root and segments and written back with
slashes; the segments `.` and `..` are resolved on the way. Paths on a drive compare without
regard to the case of ASCII letters, so their keys are lowercase.
-/

namespace DebugAdapter.Path

open Text

structure Form where
  /-- The lowercase letter of a drive. -/
  drive : Option Char
  rooted : Bool
  segments : List (List Char)
  /-- Whether the path is written with a slash after its last segment. -/
  trailing : Bool
  deriving DecidableEq, Repr

namespace Form

/-- Nothing lies above the first segment of an anchored path. -/
def anchored (drive : Option Char) (rooted : Bool) : Bool :=
  drive.isSome || rooted

def current : List Char := ['.']

def parent : List Char := ['.', '.']

/-- Adds a segment to resolved ones, which are held in reverse. -/
def push (anchored : Bool) (resolved : List (List Char)) (segment : List Char) :
    List (List Char) :=
  if segment = [] ∨ segment = current then resolved
  else if segment = parent then
    match resolved with
    | top :: below =>
      if top ≠ parent then below else if anchored then resolved else parent :: resolved
    | [] => if anchored then [] else [parent]
  else segment :: resolved

def resolve (anchored : Bool) (segments : List (List Char)) : List (List Char) :=
  (segments.foldl (push anchored) []).reverse

end Form

/-- The lowercase letter of a drive, and the path after it. -/
def splitDrive : List Char → Option Char × List Char
  | letter :: ':' :: rest =>
    if letter.isAlpha then (some letter.toLower, rest) else (none, letter :: ':' :: rest)
  | text => (none, text)

def hasDrive (text : List Char) : Bool :=
  (splitDrive text).1.isSome

def isAbsolute (text : List Char) : Bool :=
  startsWith '/' text || hasDrive text

/-- A backslash separates segments as a slash does. -/
def slashed (text : List Char) : List Char :=
  text.map fun c => if c = '\\' then '/' else c

namespace Form

def ofChars (text : List Char) : Form :=
  let (drive, rest) := splitDrive (slashed (trim text))
  let rooted := startsWith '/' rest
  let body := trimStartOf '/' rest
  { drive, rooted
    segments := resolve (anchored drive rooted) (split '/' body)
    trailing := endsWith '/' body }

def root (form : Form) : List Char :=
  (match form.drive with | some letter => [letter, ':'] | none => [])
    ++ if form.rooted then ['/'] else []

def chars (form : Form) : List Char :=
  form.root ++ join '/' form.segments
    ++ if form.trailing && !form.segments.isEmpty then ['/'] else []

end Form

def normal (text : List Char) : List Char :=
  (Form.ofChars text).chars

def keyChars (text : List Char) : List Char :=
  let path := normal text
  if hasDrive path then lowerAscii path else path

def normalize (path : String) : String :=
  .ofList (normal path.toList)

/-- Names the file of a path: paths of one file have one key. -/
def key (path : String) : String :=
  .ofList (keyChars path.toList)

end DebugAdapter.Path
