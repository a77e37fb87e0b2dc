import DebugAdapter.Number.Digits
import DebugAdapter.Text.Blank

/-!
Hit conditions of breakpoints: a positive count, with one of the relations `==`, `>=` and `>`
before it. A count alone means equality.
-/

namespace DebugAdapter.Breakpoint

inductive Relation where
  | equal
  | atLeast
  | greater
  deriving DecidableEq, Repr

structure HitCondition where
  relation : Relation
  count : Nat
  deriving DecidableEq, Repr

namespace HitCondition

def isMet (condition : HitCondition) (hits : Nat) : Bool :=
  match condition.relation with
  | .equal => hits = condition.count
  | .atLeast => condition.count ≤ hits
  | .greater => condition.count < hits

def splitRelation : List Char → Relation × List Char
  | '>' :: '=' :: rest => (.atLeast, rest)
  | '=' :: '=' :: rest => (.equal, rest)
  | '>' :: rest => (.greater, rest)
  | text => (.equal, text)

/-- Counts are words of 64 bits; zero is none. -/
def parseChars? (text : List Char) : Option HitCondition := do
  let (relation, rest) := splitRelation (Text.trim text)
  let count ← Digits.word? (Text.trim rest)
  if count = 0 then none else return ⟨relation, count⟩

def parse? (text : String) : Option HitCondition :=
  parseChars? text.toList

end HitCondition

end DebugAdapter.Breakpoint
