/-!
The ranges of whole numbers that are kept in words of 32 and of 64 bits.
-/

namespace DebugAdapter.Word

def limit32 : Nat := 0x100000000

def limit64 : Nat := 0x10000000000000000

/-- One more than the greatest word of 64 bits with a sign; its opposite is the least. -/
def signedLimit64 : Nat := 0x8000000000000000

end DebugAdapter.Word
