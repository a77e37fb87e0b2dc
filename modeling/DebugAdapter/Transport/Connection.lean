import DebugAdapter.Session.Step
import DebugAdapter.Transport.Framing

/-!
The connection to one client. The loop either takes the next thing that was read, or writes the
next message that is queued; messages are numbered as they are written.
-/

namespace DebugAdapter.Transport

inductive Status where
  | open_
  | ended
  | failed (failure : Failure)
  deriving DecidableEq, Repr

structure Connection where
  session : Session := {}
  /-- The number of queued messages that were taken for writing. -/
  taken : Nat := 0
  nextSeq : Nat := 1
  wire : List UInt8 := []
  /-- The number of messages that the writer still accepts, if there is a limit. -/
  capacity : Option Nat := none
  verbose : Bool := false
  status : Status := .open_
  deriving Inhabited

namespace Connection

def isOn (value : String) : Bool :=
  ["1", "true", "yes", "on"].contains (.ofList (Text.lowerAscii (Text.trim value.toList)))

def stamped (seq : Nat) (message : Message) : String :=
  (message.toJson seq).text

def seqOf (n : Nat) : Nat :=
  (n + 1) % Word.limit32

def takenMessages (connection : Connection) : List (Message × Nat) :=
  (connection.session.outbox.take connection.taken).zipIdx

/-- The last message taken is not written if the writer failed on it. -/
def writtenMessages (connection : Connection) : List (Message × Nat) :=
  if connection.status = .failed .writerClosed then connection.takenMessages.dropLast
  else connection.takenMessages

def shutdown (connection : Connection) : Connection :=
  { connection with session := connection.session.shutdown.1.settle }

def write (connection : Connection) : Connection :=
  match connection.session.outbox[connection.taken]? with
  | none => connection
  | some message =>
    let bytes := Framing.frame (stamped connection.nextSeq message)
    let connection := { connection with
      taken := connection.taken + 1
      nextSeq := (connection.nextSeq + 1) % Word.limit32 }
    match connection.capacity with
    | some 0 => { connection with status := .failed .writerClosed }
    | some (left + 1) =>
      { connection with capacity := some left, wire := connection.wire ++ bytes }
    | none => { connection with wire := connection.wire ++ bytes }

/-- Writes a message in the course of the loop; a failure ends the session. -/
def deliver (connection : Connection) : Connection :=
  let next := connection.write
  if next.status = .open_ then next else next.shutdown

def drain (connection : Connection) : Connection :=
  (List.range (connection.session.outbox.length - connection.taken)).foldl
    (fun connection _ => if connection.status = .open_ then connection.write else connection)
    connection

def requestNotice (request : Request) : Event :=
  Debugger.consoleEvent
    ("[script-debug] request " ++ request.command ++ " seq=" ++ toString request.seq)

/-- After the last answer the rest of the queue is written and the connection ends. -/
def exit (connection : Connection) : Connection :=
  let connection := connection.drain
  if connection.status = .open_ then { connection with status := .ended } else connection

def receiveMessage (connection : Connection) (payload : String) : Connection :=
  match Request.ofText? payload with
  | none => connection
  | some request =>
    let session :=
      if connection.verbose then connection.session.emit [requestNotice request]
      else connection.session
    let (session, disposition) := session.request request
    let connection := { connection with session }
    if disposition = .exit then connection.exit else connection

def receive (connection : Connection) : Inbound → Connection
  | .message payload => connection.receiveMessage payload
  | .closed => { connection.shutdown with status := .ended }
  | .failed failure => { connection.shutdown with status := .failed failure }

inductive Choice where
  | inbound (inbound : Inbound)
  | outbound
  deriving DecidableEq, Repr

def turn (connection : Connection) (choice : Choice) : Connection :=
  if connection.status = .open_ then
    match choice with
    | .inbound inbound => connection.receive inbound
    | .outbound => connection.deliver
  else connection

def deliverAll (connection : Connection) : Connection :=
  (List.range (connection.session.outbox.length - connection.taken)).foldl
    (fun connection _ => connection.turn .outbound) connection

/-- Serves a client whose messages are read one after the other, writing all that is queued before
the next one is taken. -/
def serve (connection : Connection) (inbound : List Inbound) : Connection :=
  inbound.foldl (fun connection inbound => connection.deliverAll.turn (.inbound inbound)) connection

end Connection

end DebugAdapter.Transport
