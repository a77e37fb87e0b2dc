/-!
UTF-8 as a machine that reads one byte at a time. Malformed input yields one mark per maximal
ill-formed part, so that the lossy and the strict reading are two views of one run, and the run
over a concatenation is the two runs in turn.
-/

namespace DebugAdapter.Text.Utf8

/-- What may come next: a character starts, or the open one takes `more + 1` further bytes, the
first of them between `low` and `high`. -/
inductive State where
  | ground
  | inside (more : Nat) (low high : UInt8) (value : Nat)
  deriving DecidableEq, Repr

/-- A decoded character, or `none` for an ill-formed part. -/
abbrev Mark := Option Char

/-- Reads the first byte of a character. The bounds on the second byte exclude overlong forms,
surrogates and values above U+10FFFF. -/
def start (b : UInt8) : List Mark × State :=
  if b < 0x80 then ([some (.ofNat b.toNat)], .ground)
  else if b < 0xC2 then ([none], .ground)
  else if b < 0xE0 then ([], .inside 0 0x80 0xBF (b.toNat - 0xC0))
  else if b = 0xE0 then ([], .inside 1 0xA0 0xBF 0)
  else if b = 0xED then ([], .inside 1 0x80 0x9F 0xD)
  else if b < 0xF0 then ([], .inside 1 0x80 0xBF (b.toNat - 0xE0))
  else if b = 0xF0 then ([], .inside 2 0x90 0xBF 0)
  else if b < 0xF4 then ([], .inside 2 0x80 0xBF (b.toNat - 0xF0))
  else if b = 0xF4 then ([], .inside 2 0x80 0x8F 4)
  else ([none], .ground)

/-- A byte that cannot continue the open character ends it as ill-formed and starts anew. -/
def step : State → UInt8 → List Mark × State
  | .ground, b => start b
  | .inside more low high value, b =>
    if low ≤ b ∧ b ≤ high then
      let value := value * 64 + (b.toNat - 0x80)
      match more with
      | 0 => ([some (.ofNat value)], .ground)
      | more + 1 => ([], .inside more 0x80 0xBF value)
    else
      let (marks, state) := start b
      (none :: marks, state)

def finish : State → List Mark
  | .ground => []
  | .inside .. => [none]

def marksFrom : State → List UInt8 → List Mark
  | state, [] => finish state
  | state, b :: rest =>
    let (marks, next) := step state b
    marks ++ marksFrom next rest

def marks (bytes : List UInt8) : List Mark :=
  marksFrom .ground bytes

def replacement : Char := '\uFFFD'

def decode (bytes : List UInt8) : List Char :=
  (marks bytes).map (·.getD replacement)

def decode? (bytes : List UInt8) : Option (List Char) :=
  (marks bytes).mapM id

def encode (text : List Char) : List UInt8 :=
  text.flatMap String.utf8EncodeChar

def isContinuation (b : UInt8) : Bool :=
  b &&& 0xC0 = 0x80

end DebugAdapter.Text.Utf8

namespace DebugAdapter.Text

def bytes (text : String) : List UInt8 :=
  Utf8.encode text.toList

end DebugAdapter.Text
