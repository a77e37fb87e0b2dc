import DebugAdapter.Number.Word

/-!
Lines and columns as the client counts them. The interpreter counts from one; the client may count
from zero, and says so separately for lines and for columns.
-/

namespace DebugAdapter

structure Coordinates where
  linesFromZero : Bool := false
  columnsFromZero : Bool := false
  deriving DecidableEq, Repr, Inhabited

namespace Coordinates

/-- Lines are words of 32 bits. -/
def maxLine : Nat := Word.limit32 - 1

def clientLine (coordinates : Coordinates) (line : Nat) : Nat :=
  if coordinates.linesFromZero then line - 1 else line

def clientColumn (coordinates : Coordinates) (column : Nat) : Nat :=
  if coordinates.columnsFromZero then column - 1 else column

def interpreterLine (coordinates : Coordinates) (line : Nat) : Nat :=
  if coordinates.linesFromZero then min (line + 1) maxLine else line

end Coordinates

end DebugAdapter
