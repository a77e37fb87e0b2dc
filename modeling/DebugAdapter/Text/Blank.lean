/-!
Blank characters: the code points with the Unicode property White_Space, and the trimming
of texts given as lists of characters.
-/

namespace DebugAdapter.Text

/-- Code points with the property White_Space, as inclusive ranges. -/
def blankRanges : List (Nat × Nat) :=
  [(0x09, 0x0D), (0x20, 0x20), (0x85, 0x85), (0xA0, 0xA0), (0x1680, 0x1680), (0x2000, 0x200A),
   (0x2028, 0x2029), (0x202F, 0x202F), (0x205F, 0x205F), (0x3000, 0x3000)]

def isBlank (c : Char) : Bool :=
  blankRanges.any fun (low, high) => low ≤ c.toNat && c.toNat ≤ high

def trimStart (text : List Char) : List Char :=
  text.dropWhile isBlank

def trimEnd (text : List Char) : List Char :=
  (text.reverse.dropWhile isBlank).reverse

def trim (text : List Char) : List Char :=
  trimEnd (trimStart text)

/-- Blank characters that open a text. -/
def indentation (text : List Char) : List Char :=
  text.takeWhile isBlank

theorem indentation_append_trimStart (text : List Char) :
    indentation text ++ trimStart text = text :=
  List.takeWhile_append_dropWhile

def trimmed (text : String) : String :=
  .ofList (trim text.toList)

end DebugAdapter.Text
