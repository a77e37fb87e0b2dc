import DebugAdapter.Text.Split
import DebugAdapter.Text.Utf8

/-!
Files as a reader of configuration finds them. A path is followed from directory to directory and
ends at the bytes of a file, or at the reason why there are none.
-/

namespace DebugAdapter.Config

inductive ReadFault where
  | zeroInName
  | missing
  | notDirectory
  | isDirectory
  | nameTooLong
  | notText
  deriving DecidableEq, Repr

def ReadFault.message : ReadFault → String
  | .zeroInName => "file name contained an unexpected NUL byte"
  | .missing => "No such file or directory (os error 2)"
  | .notDirectory => "Not a directory (os error 20)"
  | .isDirectory => "Is a directory (os error 21)"
  | .nameTooLong => "File name too long (os error 36)"
  | .notText => "stream did not contain valid UTF-8"

inductive Entry where
  | file (content : List UInt8)
  | directory (members : List (String × Entry))
  deriving Inhabited

namespace Entry

def maxName : Nat := 255

def maxPath : Nat := 4095

/-- Follows the names of a path. The trail holds the entries passed so far, the innermost first;
the outermost directory is its own parent. -/
def follow : List Entry → List (List Char) → Except ReadFault Entry
  | [], _ => .error .missing
  | here :: _, [] => .ok here
  | .file _ :: _, _ :: _ => .error .notDirectory
  | .directory members :: outer, name :: names =>
    let trail := .directory members :: outer
    if name = [] ∨ name = ['.'] then follow trail names
    else if name = ['.', '.'] then follow (if outer.isEmpty then trail else outer) names
    else if maxName < Text.byteLength name then .error .nameTooLong
    else
      match members.lookup (.ofList name) with
      | none => .error .missing
      | some next => follow (next :: trail) names

/-- The bytes of the file at a path. A path without a leading slash starts at the end of the trail,
another one at its outermost directory. -/
def read (trail : List Entry) (path : String) : Except ReadFault (List UInt8) := do
  let path := path.toList
  if path.contains '\x00' then throw .zeroInName
  if path.isEmpty then throw .missing
  if maxPath < Text.byteLength path then throw .nameTooLong
  let start := if Text.startsWith '/' path then trail.drop (trail.length - 1) else trail
  match ← follow start (Text.split '/' path) with
  | .file content => return content
  | .directory _ => throw .isDirectory

end Entry

end DebugAdapter.Config
