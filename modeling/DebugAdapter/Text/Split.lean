/-!
Texts as parts between occurrences of a separator, and the search for one text in another.
-/

namespace DebugAdapter.Text

/-- The parts of a text between the occurrences of `sep`; an empty text has one empty part. -/
def split (sep : Char) : List Char → List (List Char)
  | [] => [[]]
  | c :: rest =>
    if c = sep then [] :: split sep rest
    else
      match split sep rest with
      | [] => [[c]]
      | part :: parts => (c :: part) :: parts

def join (sep : Char) (parts : List (List Char)) : List Char :=
  List.intercalate [sep] parts

/-- What stands before and after the first occurrence of `needle`. -/
def splitFirst? (needle : List Char) : List Char → Option (List Char × List Char)
  | [] => if needle.isEmpty then some ([], []) else none
  | c :: rest =>
    match needle.isPrefixOf? (c :: rest) with
    | some after => some ([], after)
    | none => (splitFirst? needle rest).map fun (before, after) => (c :: before, after)

def startsWith (c : Char) (text : List Char) : Bool :=
  text.head? == some c

def endsWith (c : Char) (text : List Char) : Bool :=
  text.getLast? == some c

def trimStartOf (c : Char) (text : List Char) : List Char :=
  text.dropWhile (· == c)

def trimEndOf (c : Char) (text : List Char) : List Char :=
  (text.reverse.dropWhile (· == c)).reverse

/-- The number of bytes of a text in UTF-8. -/
def byteLength (text : List Char) : Nat :=
  text.foldl (fun n c => n + c.utf8Size) 0

def lowerAscii (text : List Char) : List Char :=
  text.map Char.toLower

end DebugAdapter.Text
