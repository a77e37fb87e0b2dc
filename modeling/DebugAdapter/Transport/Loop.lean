import DebugAdapter.Transport.Connection

/-!
A connection from its first byte on. What is read and what is queued wait side by side, and the loop
picks from either; meanwhile the threads of the program go on.
-/

namespace DebugAdapter.Transport

structure Loop where
  connection : Connection
  inbound : List Inbound

namespace Loop

inductive Pick where
  | inbound
  | outbound
  | program (step : Step)

def start (bytes : List UInt8) (capacity : Option Nat) (verbose : Bool) : Loop where
  connection := { capacity, verbose }
  inbound := Framing.read bytes

/-- One turn. Whatever the loop picks, it waits while there is none of it. -/
def turn (loop : Loop) : Pick → Loop
  | .inbound =>
    match loop.inbound with
    | [] => loop
    | next :: rest => ⟨loop.connection.turn (.inbound next), rest⟩
  | .outbound => { loop with connection := loop.connection.turn .outbound }
  | .program step =>
    let session := (loop.connection.session.perform step).1
    { loop with connection := { loop.connection with session } }

def run (loop : Loop) (picks : List Pick) : Loop :=
  picks.foldl turn loop

end Loop

end DebugAdapter.Transport
