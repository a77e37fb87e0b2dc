import DebugAdapter.Json.Shape

/-!
Sources as the client sees them: a file with its path, or a text that the adapter holds under a
reference.
-/

namespace DebugAdapter

structure Source where
  name : Option String := none
  path : Option String := none
  sourceReference : Option Nat := none
  deriving DecidableEq, Repr, Inhabited

namespace Source

open Json

def record : Record Source where
  title := "struct Source"
  start := {}
  fields :=
    [.option "name" readString fun s v => { s with name := v },
     .option "path" readString fun s v => { s with path := v },
     .option "sourceReference" readU32 fun s v => { s with sourceReference := v }]

def ofJson : Reader Source := record.read

def toJson (source : Source) : Json :=
  ofMembers <|
    member? "name" .string source.name
      ++ member? "path" .string source.path
      ++ member? "sourceReference" ofNat source.sourceReference

end Source

end DebugAdapter
