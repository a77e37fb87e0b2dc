import DebugAdapter.Output.Style
import DebugAdapter.Text.Encoding

/-!
Escape sequences in a stream of output. The parser reads one byte at a time and keeps what is
incomplete, so the runs of text that it emits do not depend on how the stream is cut up.
-/

namespace DebugAdapter.Output

structure Run where
  text : String
  style : Style
  deriving DecidableEq, Repr

/-- What the next byte belongs to: text, the start of a sequence, or the parameters of one, with
those that are complete and the one that is read. -/
inductive Mode where
  | ground
  | escape
  | control (params : List Nat) (current : Option Nat)
  deriving DecidableEq, Repr, Inhabited

structure Parser where
  mode : Mode := .ground
  style : Style := {}
  pending : List UInt8 := []
  /-- Pending text that has grown to this many bytes ends before the next character. -/
  threshold : Nat := 4096
  deriving DecidableEq, Repr, Inhabited

namespace Parser

def ofThreshold (threshold : Nat) : Parser :=
  { threshold := max threshold 1 }

def escapeByte : UInt8 := 0x1B

def lineEnd : UInt8 := 0x0A

def maxParam : Nat := 65535

def maxParams : Nat := 64

def hasPending (parser : Parser) : Bool :=
  !parser.pending.isEmpty

def flush (coding : Text.Encoding) (parser : Parser) : Parser × List Run :=
  if parser.pending.isEmpty then (parser, [])
  else ({ parser with pending := [] }, [⟨coding.decode parser.pending, parser.style⟩])

def reset (parser : Parser) : Parser :=
  { threshold := parser.threshold }

def push (b : UInt8) (parser : Parser) : Parser :=
  { parser with pending := parser.pending ++ [b] }

/-- A line end closes a run. A run that has grown long enough ends where a character starts. -/
def readText (coding : Text.Encoding) (parser : Parser) (b : UInt8) : Parser × List Run :=
  if b = escapeByte then ({ parser with mode := .escape }, [])
  else if b = lineEnd then (parser.push b).flush coding
  else if parser.threshold ≤ parser.pending.length ∧ !Text.Utf8.isContinuation b then
    let (flushed, runs) := parser.flush coding
    (flushed.push b, runs)
  else (parser.push b, [])

/-- Ends a parameter; one that was left out is zero. -/
def addParam (params : List Nat) (current : Option Nat) : List Nat :=
  if params.length < maxParams then params ++ [current.getD 0] else params

def addDigit (current : Option Nat) (b : UInt8) : Nat :=
  min (current.getD 0 * 10 + (b.toNat - 0x30)) maxParam

/-- Selects a style. A run ends where its style changes, and at every reset. -/
def selectStyle (coding : Text.Encoding) (parser : Parser) (params : List Nat) :
    Parser × List Run :=
  let style := parser.style.selectAll params
  if params.all (· = 0) || style ≠ parser.style then
    let (flushed, runs) := parser.flush coding
    ({ flushed with style }, runs)
  else (parser, [])

/-- Reads a byte of a control sequence. Bytes that are neither digits, separators nor final ones
are passed over. -/
def readControl (coding : Text.Encoding) (parser : Parser) (params : List Nat)
    (current : Option Nat) (b : UInt8) : Parser × List Run :=
  if 0x30 ≤ b ∧ b ≤ 0x39 then
    ({ parser with mode := .control params (some (addDigit current b)) }, [])
  else if b = 0x3B then
    ({ parser with mode := .control (addParam params current) none }, [])
  else if 0x40 ≤ b ∧ b ≤ 0x7E then
    let ground := { parser with mode := .ground }
    if b = 0x6D then selectStyle coding ground (addParam params current) else (ground, [])
  else (parser, [])

def step (coding : Text.Encoding) (parser : Parser) (b : UInt8) : Parser × List Run :=
  match parser.mode with
  | .ground => parser.readText coding b
  | .escape =>
    if b = 0x5B then ({ parser with mode := .control [] none }, [])
    else ({ parser with mode := .ground }, [])
  | .control params current => parser.readControl coding params current b

def feed (coding : Text.Encoding) : Parser → List UInt8 → Parser × List Run
  | parser, [] => (parser, [])
  | parser, b :: rest =>
    let (next, runs) := parser.step coding b
    let (last, more) := feed coding next rest
    (last, runs ++ more)

end Parser

end DebugAdapter.Output
