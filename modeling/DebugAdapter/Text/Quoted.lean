import DebugAdapter.Text.Printed

/-!
Texts in double quotes, as error messages show them: quotes and backslashes are escaped, line
ends, tabs and NUL have short escapes, and other characters without a glyph are written as their
code points.
-/

namespace DebugAdapter.Text.Quoted

def escape (c : Char) : List Char :=
  if c = '\x00' then ['\\', '0']
  else if c = '\t' then ['\\', 't']
  else if c = '\r' then ['\\', 'r']
  else if c = '\n' then ['\\', 'n']
  else if c = '"' then ['\\', '"']
  else if c = '\\' then ['\\', '\\']
  else if isPrinted c then [c]
  else ['\\', 'u', '{'] ++ Nat.toDigits 16 c.toNat ++ ['}']

def encode (text : String) : String :=
  .ofList ('"' :: text.toList.flatMap escape ++ ['"'])

end DebugAdapter.Text.Quoted
