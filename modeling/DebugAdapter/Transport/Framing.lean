import DebugAdapter.Number.Digits
import DebugAdapter.Number.Word
import DebugAdapter.Text.Blank
import DebugAdapter.Text.Split
import DebugAdapter.Text.Utf8

/-!
Messages in a stream of bytes: header lines, one of which gives the length of the payload, an empty
line, and the payload. The reader takes one byte at a time.
-/

namespace DebugAdapter.Transport

inductive Failure where
  | headerText
  | missingLength
  | payloadText
  | shortPayload
  | writerClosed
  deriving DecidableEq, Repr

def Failure.message : Failure → String
  | .headerText => "stream did not contain valid UTF-8"
  | .missingLength => "missing Content-Length header"
  | .payloadText => "invalid utf-8 payload"
  | .shortPayload => "failed to fill whole buffer"
  | .writerClosed => "writer closed"

inductive Inbound where
  | message (payload : String)
  | closed
  | failed (failure : Failure)
  deriving DecidableEq, Repr

namespace Framing

def lengthName : String := "Content-Length"

def frameBytes (payload : List UInt8) : List UInt8 :=
  Text.bytes (lengthName ++ ": " ++ toString payload.length ++ "\r\n\r\n") ++ payload

def frame (payload : String) : List UInt8 :=
  frameBytes (Text.bytes payload)

/-- What the next byte belongs to: a header line, with the length given so far, or a payload of
which `left + 1` bytes are missing; after a failure nothing more is read. Bytes that were read are
held in reverse. -/
inductive Reader where
  | header (length : Option Nat) (line : List UInt8)
  | payload (left : Nat) (seen : List UInt8)
  | ended
  deriving DecidableEq, Repr

def lengthOf? (line : List Char) : Option Nat := do
  let (name, value) ← Text.splitFirst? [':'] line
  if Text.lowerAscii (Text.trim name) = Text.lowerAscii lengthName.toList then
    Digits.word? (Text.trim value)
  else none

def isLineEnd (c : Char) : Bool :=
  c = '\r' || c = '\n'

def stripEnd (line : List Char) : List Char :=
  (line.reverse.dropWhile isLineEnd).reverse

def payloadMessage (bytes : List UInt8) : Inbound :=
  match Text.Utf8.decode? bytes with
  | some text => .message (.ofList text)
  | none => .failed .payloadText

def afterMessage : Inbound → Reader
  | .failed _ => .ended
  | _ => .header none []

/-- The end of a header: a payload follows, unless it is empty. A length past the words with a sign
cannot be held, and the stream counts as closed. -/
def endHeader : Option Nat → Reader × List Inbound
  | none => (.ended, [.failed .missingLength])
  | some 0 => (.header none [], [payloadMessage []])
  | some (left + 1) =>
    if left + 1 < Word.signedLimit64 then (.payload left [], []) else (.ended, [.closed])

/-- The end of a header line. The last length that is given counts. -/
def endLine (length : Option Nat) (line : List UInt8) : Reader × List Inbound :=
  match Text.Utf8.decode? line with
  | none => (.ended, [.failed .headerText])
  | some text =>
    let text := stripEnd text
    if text.isEmpty then endHeader length
    else (.header ((lengthOf? text).orElse fun _ => length) [], [])

def step : Reader → UInt8 → Reader × List Inbound
  | .header length line, b =>
    if b = 0x0A then endLine length (b :: line).reverse else (.header length (b :: line), [])
  | .payload 0 seen, b =>
    let inbound := payloadMessage (b :: seen).reverse
    (afterMessage inbound, [inbound])
  | .payload (left + 1) seen, b => (.payload left (b :: seen), [])
  | .ended, _ => (.ended, [])

/-- What the end of the stream means. A last header line need not be ended. -/
def finish : Reader → List Inbound
  | .ended => []
  | .payload .. => [.failed .shortPayload]
  | .header _ [] => [.closed]
  | .header length line =>
    let (reader, inbound) := endLine length line.reverse
    match reader with
    | .ended => inbound
    | .payload .. => inbound ++ [.failed .shortPayload]
    | .header .. => inbound ++ [.closed]

def feed : Reader → List UInt8 → Reader × List Inbound
  | reader, [] => (reader, [])
  | reader, b :: rest =>
    let (next, inbound) := step reader b
    let (last, more) := feed next rest
    (last, inbound ++ more)

/-- What each piece of a stream brings, and then how the stream ends. -/
def readPieces : Reader → List (List UInt8) → List (List Inbound)
  | reader, [] => [finish reader]
  | reader, piece :: pieces =>
    let (next, inbound) := feed reader piece
    inbound :: readPieces next pieces

def read (bytes : List UInt8) : List Inbound :=
  (readPieces (.header none []) [bytes]).flatten

end Framing

end DebugAdapter.Transport
