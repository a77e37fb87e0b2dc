import DebugAdapter.Number.Word

/-!
Digits and the numbers that strings of them stand for.
-/

namespace DebugAdapter.Digits

def digit? (c : Char) : Option Nat :=
  if c.isDigit then some (c.toNat - 48)
  else if 'a' ≤ c ∧ c ≤ 'f' then some (c.toNat - 87)
  else if 'A' ≤ c ∧ c ≤ 'F' then some (c.toNat - 55)
  else none

def value (base : Nat) (digits : List Char) : Nat :=
  digits.foldl (fun n c => n * base + (digit? c).getD 0) 0

/-- A word of 64 bits in decimal notation, with an optional plus sign. -/
def word? (text : List Char) : Option Nat :=
  let digits := match text with | '+' :: rest => rest | _ => text
  if digits.isEmpty || !digits.all Char.isDigit then none
  else
    let n := value 10 digits
    if n < Word.limit64 then some n else none

end DebugAdapter.Digits
