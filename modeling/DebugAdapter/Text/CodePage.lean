/-!
The code page 1252: one byte a character, with its own table for the bytes 0x80 to 0x9F. Bytes
that the table leaves out stand for the control characters of the same number.
-/

namespace DebugAdapter.Text.CodePage

/-- Code points of the bytes 0x80 to 0x9F; zero marks a byte that the page leaves out. -/
def high : List Nat :=
  [0x20AC, 0, 0x201A, 0x0192, 0x201E, 0x2026, 0x2020, 0x2021,
   0x02C6, 0x2030, 0x0160, 0x2039, 0x0152, 0, 0x017D, 0,
   0, 0x2018, 0x2019, 0x201C, 0x201D, 0x2022, 0x2013, 0x2014,
   0x02DC, 0x2122, 0x0161, 0x203A, 0x0153, 0, 0x017E, 0x0178]

def decodeByte (b : UInt8) : Char :=
  if 0x80 ≤ b ∧ b < 0xA0 then
    match high[b.toNat - 0x80]? with
    | some 0 | none => .ofNat b.toNat
    | some code => .ofNat code
  else
    .ofNat b.toNat

/-- Written for a character that the page does not hold. -/
def unknown : UInt8 := 0x3F

def encodeChar (c : Char) : UInt8 :=
  let code := c.toNat
  if code < 0x80 ∨ (0xA0 ≤ code ∧ code ≤ 0xFF) then .ofNat code
  else
    match high.findIdx? (fun entry => entry ≠ 0 && entry = code) with
    | some index => .ofNat (0x80 + index)
    | none =>
      if 0x80 ≤ code ∧ code < 0xA0 ∧ high[code - 0x80]? = some 0 then .ofNat code else unknown

def decode (bytes : List UInt8) : List Char :=
  bytes.map decodeByte

def encode (text : List Char) : List UInt8 :=
  text.map encodeChar

end DebugAdapter.Text.CodePage
