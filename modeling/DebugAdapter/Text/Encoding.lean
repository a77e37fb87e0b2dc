import DebugAdapter.Text.Utf8
import DebugAdapter.Text.CodePage

/-!
The encodings in which a debugged program may write its output and name its chunks. Input that is
ASCII alone takes a shorter way in the code page; it reads and writes the same text.
-/

namespace DebugAdapter.Text

inductive Encoding where
  | utf8
  | ansi
  deriving DecidableEq, Repr, Inhabited

namespace Encoding

def name : Encoding → String
  | .utf8 => "utf8"
  | .ansi => "ansi"

def isAscii (bytes : List UInt8) : Bool :=
  bytes.all (· < 0x80)

def decodeChars (coding : Encoding) (bytes : List UInt8) : List Char :=
  match coding with
  | .utf8 => Utf8.decode bytes
  | .ansi => if isAscii bytes then Utf8.decode bytes else CodePage.decode bytes

def encodeChars (coding : Encoding) (text : List Char) : List UInt8 :=
  match coding with
  | .utf8 => Utf8.encode text
  | .ansi => if text.all (·.toNat < 0x80) then Utf8.encode text else CodePage.encode text

def decode (coding : Encoding) (bytes : List UInt8) : String :=
  .ofList (coding.decodeChars bytes)

def encode (coding : Encoding) (text : String) : List UInt8 :=
  coding.encodeChars text.toList

end Encoding

end DebugAdapter.Text
