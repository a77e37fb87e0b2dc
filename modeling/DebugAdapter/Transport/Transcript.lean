import DebugAdapter.Text.Split
import DebugAdapter.Transport.Connection

/-!
Transcripts of a connection: a line for each message, with an arrow for its direction. The lines are
read back as they stand, so a line break within a payload starts a line of its own.
-/

namespace DebugAdapter.Transport

inductive Passage where
  | read (payload : String)
  | written (payload : String)
  deriving DecidableEq, Repr

namespace Passage

def readArrow : List Char := ['<', '-', ' ']

def writtenArrow : List Char := ['-', '>', ' ']

def text : Passage → List Char
  | .read payload => readArrow ++ payload.toList ++ ['\n']
  | .written payload => writtenArrow ++ payload.toList ++ ['\n']

def ofInbound? : Inbound → Option Passage
  | .message payload => some (.read payload)
  | _ => none

end Passage

namespace Connection

/-- The messages that were taken for writing since an earlier state of the connection. -/
def writtenSince (earlier connection : Connection) : List Passage :=
  (connection.takenMessages.drop earlier.taken).map fun (message, n) =>
    .written (stamped (seqOf n) message)

/-- Serves a client whose messages arrive in batches: all that is queued is written before a batch
arrives, and a batch has arrived as a whole before its first message is taken. -/
def record (connection : Connection) : List (List Inbound) → Connection × List Passage
  | [] => (connection, [])
  | batch :: batches =>
    let ready := connection.deliverAll
    let served := ready.serve batch
    let (last, passages) := served.record batches
    (last, writtenSince connection ready ++ batch.filterMap Passage.ofInbound?
      ++ writtenSince ready served ++ passages)

end Connection

namespace Transcript

def text (passages : List Passage) : List Char :=
  passages.flatMap Passage.text

def stripReturn (line : List Char) : List Char :=
  if Text.endsWith '\r' line then line.dropLast else line

/-- What follows an arrow on the lines that start with it. -/
def linesAfter (arrow : List Char) (passages : List Passage) : List String :=
  ((Text.split '\n' (text passages)).map stripReturn).filterMap fun line =>
    (arrow.isPrefixOf? line).map .ofList

def inbound (passages : List Passage) : List String :=
  linesAfter Passage.readArrow passages

def outbound (passages : List Passage) : List Json :=
  (linesAfter Passage.writtenArrow passages).filterMap Json.ofText?

end Transcript

end DebugAdapter.Transport
