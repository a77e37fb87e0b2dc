import DebugAdapter.Proofs.Session.Ending
import DebugAdapter.Proofs.Session.Record
import DebugAdapter.Proofs.Transport.Framing
import DebugAdapter.Transport.Loop

/-! The loop of a connection, in whatever order it picks. It writes what is queued, in order and
each message once, and it never leaves a session behind that is not over. -/
namespace DebugAdapter

theorem Debugger.carryOut_stays {debugger : Debugger} {command : ControlCommand}
    {request : Request} {change : Change} (carried : debugger.carryOut command request = .ok change)
    (stays : command ≠ .disconnect) : change.exit = false := by
  cases command with
  | handshake =>
    simp only [carryOut, handshake] at carried
    split at carried
    · contradiction
    · cases carried
      rfl
  | launch | attach =>
    obtain ⟨_, config, events, _, _, _, _, _, rfl⟩ := Debugger.start_spec carried
    rfl
  | setBreakpoints =>
    simp only [carryOut, setBreakpoints] at carried
    repeat' split at carried
    all_goals first | contradiction | (cases carried; rfl)
  | setExceptionBreakpoints =>
    simp only [carryOut, setExceptionBreakpoints] at carried
    repeat' split at carried
    all_goals first | contradiction | (cases carried; rfl)
  | configurationDone =>
    obtain ⟨_, rfl⟩ := Debugger.configurationDone_spec carried
    rfl
  | pause =>
    simp only [carryOut, pause] at carried
    split at carried
    · contradiction
    · cases carried
      rfl
  | terminate =>
    cases carried
    rfl
  | disconnect => contradiction

namespace Session

variable {session : Session} {request : Request}

theorem grows_of_following (run : Session → Session)
    (unaware : ∀ session earlier, run (session.following earlier) = (run session).following earlier)
    (session : Session) : session.outbox <+: (run session).outbox := by
  have grown := unaware session.unrecorded session
  rw [unrecorded_following] at grown
  rw [grown]
  exact List.prefix_append _ _

theorem perform_grows (session : Session) (step : Step) :
    session.outbox <+: (session.perform step).1.outbox :=
  grows_of_following (fun session => (session.perform step).1)
    (fun _ _ => congrArg Prod.fst (perform_following step)) session

theorem Settled.emit (settled : session.Settled) (events : List Event) :
    (session.emit events).Settled :=
  ⟨settled.coherent.unmoved ⟨rfl, rfl, rfl, rfl, rfl, rfl, rfl, rfl⟩, settled.drained, settled.ends⟩

theorem perform_over (settled : session.Settled)
    (ends : session.debugger.control.state = .terminated) (step : Step) :
    (session.perform step).1.debugger.control.state = .terminated := by
  obtain ⟨sent, _, follows, _⟩ := perform_follows settled step
  rw [turn, Execution.Control.turn_over ends] at follows
  exact Execution.Control.turn_eq_nobody.mp (Turn.foldlM_nobody follows).2

/-- A session that is at rest, and whose end the client was told if it is over. -/
structure Served (session : Session) : Prop where
  settled : session.Settled
  told : session.debugger.control.state = .terminated → .event .terminated ∈ session.outbox

theorem served_new : ({} : Session).Served :=
  ⟨settled_new, by simp⟩

theorem Served.emit (served : session.Served) (events : List Event) :
    (session.emit events).Served :=
  ⟨served.settled.emit events, fun ends => List.mem_append_left _ (served.told ends)⟩

theorem Served.perform (served : session.Served) (step : Step) :
    (session.perform step).1.Served := by
  refine ⟨perform_settled served.settled step, fun ends => ?_⟩
  by_cases terminated : session.debugger.control.state = .terminated
  · exact (session.perform_grows step).subset (served.told terminated)
  · obtain ⟨sent, outbox, follows, _⟩ := perform_follows served.settled step
    have once := Turn.foldlM_ends (Execution.Control.turn_live terminated) follows
    rw [turn, Execution.Control.turn_over ends, if_pos rfl, ← countP_ends] at once
    obtain ⟨message, member, told⟩ :=
      List.countP_pos_iff.mp (show 0 < sent.countP Message.ends by omega)
    rw [outbox]
    refine List.mem_append_right _ ?_
    cases message with
    | response => contradiction
    | event event => cases event <;> first | contradiction | exact member

/-- The session is over when a request to disconnect has been answered. -/
theorem request_disconnect (settled : session.Settled) (asked : request.kind = .request)
    (named : request.command = "disconnect") :
    (session.request request).2 = .exit ∧
      (session.request request).1.debugger.control.state = .terminated ∧
      .response request.seq request.command (.ok .empty) ∈ (session.request request).1.outbox := by
  have command : Command.ofName? request.command = some (.control .disconnect) := by
    rw [named]
    rfl
  obtain ⟨closed, act, effect, handled⟩ : ∃ closed : Session, Act session (some request) closed ∧
      Ended session closed [.response request.seq request.command (.ok .empty)] ∧
      session.handle request = (closed, .exit) := by
    have act : Act session (some request)
        (session.apply request (session.debugger.finishSession true)) :=
      .close request .disconnect true asked command (.inr rfl)
    refine ⟨_, act, close_ended session request true, ?_⟩
    have ready := releaseIfReady_eq (act.coherent settled.coherent)
    have concluded : session.conclude request (session.debugger.carryOut .disconnect request) =
        ((session.apply request (session.debugger.finishSession true)).modifyDebugger
          (·.releaseIfReady), .exit) := rfl
    rw [handle_control asked command (.inl rfl), concluded, ready]
  have coherent := act.coherent settled.coherent
  obtain ⟨served, drained⟩ := serve_acts coherent
  have terminated := served.ended coherent effect.state
  obtain ⟨settling, -⟩ := settle_over drained (served.coherent coherent) terminated
  have answered : Message.response request.seq request.command (.ok .empty) ∈ closed.outbox := by
    obtain ⟨news, -, ⟨-, -, outbox⟩ | ⟨-, -, outbox⟩⟩ := effect.outbox
    all_goals
      rw [outbox]
      simp
  have grown := grows_of_following (fun session => session.serve.settle) (by simp) closed
  simp only [Session.request, handled]
  exact ⟨trivial, settling.ended (served.coherent coherent) terminated, grown.subset answered⟩

theorem exit_disconnects {session : Session} {request : Request}
    (exits : (session.request request).2 = .exit) :
    request.kind = .request ∧ request.command = "disconnect" := by
  have table : ∀ entry ∈ Command.table, entry.2 = .control .disconnect →
      entry.1 = "disconnect" := by decide
  change (session.handle request).2 = .exit at exits
  cases session.handling request with
  | other _ taken | unknown _ _ taken | late _ _ _ _ _ taken | deferred _ _ _ _ _ taken
  | unserved _ _ _ _ _ taken =>
    rw [taken] at exits
    contradiction
  | control command asked named _ taken =>
    rw [taken] at exits
    obtain rfl : command = .disconnect := by
      dsimp only [conclude] at exits
      split at exits
      · rename_i change carried
        by_contra stays
        rw [Debugger.carryOut_stays carried stays] at exits
        contradiction
      · contradiction
    exact ⟨asked, table _ (Command.mem_table named) rfl⟩

theorem perform_shutdown (settled : session.Settled) :
    (session.perform .shutdown).1.debugger.control.state = .terminated := by
  have ended : Acts session [] session.shutdown.1 := .still .shutdown
  have coherent := ended.coherent settled.coherent
  have terminated := (shutdown_ended session).state
  obtain ⟨acts, -⟩ := settle_over (ended.drained settled.drained) coherent terminated
  exact acts.ended coherent terminated

end Session

namespace Transport.Connection

variable {connection : Connection}

def written (connection : Connection) : Nat :=
  if connection.status = .failed .writerClosed then connection.taken - 1 else connection.taken

theorem written_eq (accepting : connection.status ≠ .failed .writerClosed) :
    connection.written = connection.taken :=
  if_neg accepting

theorem written_le (connection : Connection) : connection.written ≤ connection.taken := by
  unfold written
  split
  · exact Nat.sub_le _ _
  · exact Nat.le_refl _

/-- The frames of messages, numbered from one in words of 32 bits. -/
def framed (messages : List Message) : List UInt8 :=
  messages.zipIdx.flatMap fun (message, n) => Framing.frame (stamped (seqOf n) message)

def numbered (messages : List Message) : List UInt8 :=
  (messages.zipIdx 1).flatMap fun (message, seq) => Framing.frame (stamped seq message)

theorem framed_take_succ {messages : List Message} {n : Nat} {message : Message}
    (found : messages[n]? = some message) :
    framed (messages.take (n + 1)) =
      framed (messages.take n) ++ Framing.frame (stamped (seqOf n) message) := by
  have short : n < messages.length := (List.getElem?_eq_some_iff.mp found).1
  have length : (messages.take n).length = n := List.length_take_of_le (Nat.le_of_lt short)
  rw [List.take_add_one, found, framed, List.zipIdx_append, List.flatMap_append, length]
  simp [framed]

/-- What is kept while the loop goes on and after it has ended. -/
structure Faithful (connection : Connection) : Prop where
  served : connection.session.Served
  taken : connection.taken ≤ connection.session.outbox.length
  numbered : connection.nextSeq = seqOf connection.taken
  wire : connection.wire = framed (connection.session.outbox.take connection.written)
  intact : connection.capacity = none → connection.status ≠ .failed .writerClosed

theorem faithful_new (capacity : Option Nat) (verbose : Bool) :
    ({ capacity, verbose } : Connection).Faithful where
  served := Session.served_new
  taken := Nat.zero_le _
  numbered := rfl
  wire := rfl
  intact := by simp

/-- A session that has added to its record has not touched what was written. -/
theorem Faithful.session (faithful : connection.Faithful) {session : Session}
    (served : session.Served) (grown : connection.session.outbox <+: session.outbox) :
    { connection with session }.Faithful := by
  obtain ⟨more, same⟩ := grown
  refine ⟨served, ?_, faithful.numbered, ?_, faithful.intact⟩
  · exact Nat.le_trans faithful.taken (same ▸ by simp)
  · have within := Nat.le_trans connection.written_le faithful.taken
    rw [faithful.wire]
    change _ = framed (session.outbox.take connection.written)
    rw [← same, List.take_append_of_le_length within]

theorem Faithful.writtenMessages (faithful : connection.Faithful) :
    connection.wire = connection.writtenMessages.flatMap fun (message, n) =>
      Framing.frame (stamped (seqOf n) message) := by
  rw [faithful.wire, framed, written, Connection.writtenMessages, takenMessages]
  split
  · cases taken : connection.taken with
    | zero => rfl
    | succ n =>
      have more : n < connection.session.outbox.length := by
        have within := faithful.taken
        omega
      have last : (connection.session.outbox.take (n + 1)).zipIdx.dropLast =
          (connection.session.outbox.take n).zipIdx := by
        rw [List.take_add_one, List.getElem?_eq_getElem more, Option.toList_some,
          List.zipIdx_append, List.zipIdx_singleton, List.dropLast_concat]
      rw [last, Nat.add_sub_cancel]
  · rfl

theorem write_spec (connection : Connection) :
    (connection.session.outbox[connection.taken]? = none ∧ connection.write = connection) ∨
      ∃ message, connection.session.outbox[connection.taken]? = some message ∧
        ((connection.capacity = some 0 ∧ connection.write = { connection with
            taken := connection.taken + 1
            nextSeq := (connection.nextSeq + 1) % Word.limit32
            status := .failed .writerClosed }) ∨
          ∃ capacity, (capacity = none ↔ connection.capacity = none) ∧
            connection.write = { connection with
              taken := connection.taken + 1
              nextSeq := (connection.nextSeq + 1) % Word.limit32
              capacity
              wire := connection.wire ++
                Framing.frame (stamped connection.nextSeq message) }) := by
  unfold write
  cases next : connection.session.outbox[connection.taken]? with
  | none => exact .inl ⟨rfl, rfl⟩
  | some message =>
    refine .inr ⟨message, rfl, ?_⟩
    match limit : connection.capacity with
    | some 0 => exact .inl ⟨rfl, rfl⟩
    | some (left + 1) => exact .inr ⟨some left, by simp, rfl⟩
    | none => exact .inr ⟨none, by simp, rfl⟩

theorem seqOf_succ (n : Nat) : seqOf (n + 1) = (seqOf n + 1) % Word.limit32 := by
  simp only [seqOf, Nat.mod_add_mod]

theorem Faithful.write (faithful : connection.Faithful) (serving : connection.status = .open_) :
    connection.write.Faithful := by
  have accepting : connection.status ≠ .failed .writerClosed := by simp [serving]
  have wire := faithful.wire
  rw [written_eq accepting] at wire
  rcases connection.write_spec with
    ⟨-, same⟩ | ⟨message, found, ⟨limited, same⟩ | ⟨capacity, kept, same⟩⟩
  · rw [same]
    exact faithful
  · rw [same]
    have more := (List.getElem?_eq_some_iff.mp found).1
    refine ⟨faithful.served, more, ?_, wire, fun free => ?_⟩
    · rw [seqOf_succ, ← faithful.numbered]
    · rw [limited] at free
      contradiction
  · have status : connection.write.status ≠ .failed .writerClosed := by
      rw [same]
      exact accepting
    have session : connection.write.session = connection.session := by rw [same]
    have taken : connection.write.taken = connection.taken + 1 := by rw [same]
    have numbered : connection.write.nextSeq = (connection.nextSeq + 1) % Word.limit32 := by
      rw [same]
    have more := (List.getElem?_eq_some_iff.mp found).1
    refine ⟨session ▸ faithful.served, session ▸ taken ▸ more, ?_, ?_, fun _ => status⟩
    · rw [numbered, taken, seqOf_succ, ← faithful.numbered]
    · rw [written_eq status, taken, session, framed_take_succ found, ← wire, ← faithful.numbered,
        same]

theorem write_session (connection : Connection) :
    connection.write.session = connection.session := by
  rcases connection.write_spec with
    ⟨-, same⟩ | ⟨message, -, ⟨-, same⟩ | ⟨capacity, -, same⟩⟩
  all_goals rw [same]

theorem drain_spec (faithful : connection.Faithful) (serving : connection.status = .open_) :
    connection.drain.Faithful ∧ connection.drain.session = connection.session ∧
      ((connection.drain.status = .open_ ∧
          connection.drain.taken = connection.session.outbox.length) ∨
        connection.drain.status = .failed .writerClosed) := by
  have rounds : ∀ (rounds : List Nat) (connection : Connection), connection.Faithful →
      connection.status = .failed .writerClosed ∨ connection.status = .open_ ∧
        connection.session.outbox.length ≤ connection.taken + rounds.length →
      let drained := rounds.foldl (fun connection _ =>
        if connection.status = .open_ then connection.write else connection) connection
      drained.Faithful ∧ drained.session = connection.session ∧
        (drained.status = .open_ ∧ drained.taken = connection.session.outbox.length ∨
          drained.status = .failed .writerClosed) := by
    intro rounds
    induction rounds with
    | nil =>
      intro connection faithful reached
      refine ⟨faithful, rfl, ?_⟩
      rcases reached with failed | ⟨serving, all⟩
      · exact .inr failed
      · exact .inl ⟨serving, Nat.le_antisymm faithful.taken all⟩
    | cons round rest ih =>
      intro connection faithful reached
      rw [List.foldl_cons]
      rcases reached with failed | ⟨serving, near⟩
      · rw [if_neg (by simp [failed])]
        exact ih connection faithful (.inl failed)
      · rw [if_pos serving]
        have session := connection.write_session
        have next := ih connection.write (faithful.write serving)
        rw [session] at next
        refine next ?_
        rw [List.length_cons] at near
        rcases connection.write_spec with
          ⟨none, same⟩ | ⟨message, -, ⟨-, same⟩ | ⟨capacity, -, same⟩⟩
        · have all := List.getElem?_eq_none_iff.mp none
          rw [same]
          exact .inr ⟨serving, by omega⟩
        · exact .inl (by rw [same])
        · have taken : connection.write.taken = connection.taken + 1 := by rw [same]
          rw [taken]
          exact .inr ⟨by rw [same]; exact serving, by omega⟩
  refine rounds (List.range _) connection faithful (.inr ⟨serving, ?_⟩)
  rw [List.length_range]
  omega

/-- When the loop has ended, so has the session. -/
structure Sound (connection : Connection) : Prop extends connection.Faithful where
  terminated : connection.status ≠ .open_ → connection.session.debugger.control.state = .terminated

theorem sound_new (capacity : Option Nat) (verbose : Bool) :
    ({ capacity, verbose } : Connection).Sound :=
  ⟨faithful_new capacity verbose, fun ended => absurd rfl ended⟩

theorem Sound.perform (sound : connection.Sound) (step : Step) :
    { connection with session := (connection.session.perform step).1 }.Sound :=
  ⟨sound.toFaithful.session (sound.served.perform step) (Session.perform_grows _ step),
    fun ended => Session.perform_over sound.served.settled (sound.terminated ended) step⟩

/-- A loop that ends otherwise than by a failing writer has written what it took. -/
theorem Faithful.closes (faithful : connection.Faithful)
    (accepting : connection.status ≠ .failed .writerClosed) {status : Status}
    (other : status ≠ .failed .writerClosed) : { connection with status }.Faithful := by
  refine ⟨faithful.served, faithful.taken, faithful.numbered, ?_, fun _ => other⟩
  have wire := faithful.wire
  rw [written_eq accepting] at wire
  exact wire.trans (congrArg (fun n => framed (connection.session.outbox.take n))
    (if_neg other : (if status = .failed .writerClosed then _ else _) = connection.taken).symm)

theorem Faithful.shutdown (faithful : connection.Faithful) :
    connection.shutdown.Faithful ∧
      connection.shutdown.session.debugger.control.state = .terminated :=
  ⟨faithful.session (faithful.served.perform .shutdown) (Session.perform_grows _ .shutdown),
    Session.perform_shutdown faithful.served.settled⟩

theorem Sound.breaks (sound : connection.Sound) (serving : connection.status = .open_)
    {status : Status} (other : status ≠ .failed .writerClosed) :
    { connection.shutdown with status }.Sound := by
  obtain ⟨faithful, terminated⟩ := sound.toFaithful.shutdown
  have accepting : connection.shutdown.status ≠ .failed .writerClosed := by
    change connection.status ≠ _
    simp [serving]
  exact ⟨faithful.closes accepting other, fun _ => terminated⟩

theorem Sound.deliver (sound : connection.Sound) (serving : connection.status = .open_) :
    connection.deliver.Sound := by
  have written := sound.toFaithful.write serving
  unfold Connection.deliver
  dsimp only
  split
  · rename_i still
    exact ⟨written, fun ended => absurd still ended⟩
  · obtain ⟨faithful, terminated⟩ := written.shutdown
    exact ⟨faithful, fun _ => terminated⟩

theorem exit_spec (faithful : connection.Faithful) (serving : connection.status = .open_) :
    connection.exit.Faithful ∧ connection.exit.session = connection.session ∧
      (connection.exit.status = .ended ∧
          connection.exit.written = connection.session.outbox.length ∨
        connection.exit.status = .failed .writerClosed) := by
  obtain ⟨drained, session, ⟨still, taken⟩ | failed⟩ := drain_spec faithful serving
  · have same : connection.exit = { connection.drain with status := .ended } := if_pos still
    rw [same]
    exact ⟨drained.closes (by simp [still]) (by simp), session, .inl ⟨rfl, taken⟩⟩
  · have same : connection.exit = connection.drain := if_neg (by simp [failed])
    rw [same]
    exact ⟨drained, session, .inr failed⟩

/-- The session once a request was shown, if that is asked for, and answered. -/
def answered (connection : Connection) (request : Request) : Session × Disposition :=
  let session :=
    if connection.verbose then connection.session.emit [requestNotice request]
    else connection.session
  session.request request

theorem receiveMessage_eq {payload : String} {request : Request}
    (decoded : Request.ofText? payload = some request) :
    connection.receiveMessage payload =
      let next := { connection with session := (connection.answered request).1 }
      if (connection.answered request).2 = .exit then next.exit else next := by
  rw [receiveMessage, decoded]
  rfl

theorem answered_spec (served : connection.session.Served) (request : Request) :
    ∃ session : Session, session.Served ∧ connection.session.outbox <+: session.outbox ∧
      connection.answered request = session.request request := by
  unfold answered
  split
  · exact ⟨_, served.emit _, List.prefix_append _ _, rfl⟩
  · exact ⟨_, served, List.prefix_refl _, rfl⟩

theorem Sound.answered (sound : connection.Sound) (request : Request) :
    { connection with session := (connection.answered request).1 }.Faithful := by
  obtain ⟨session, served, grown, same⟩ := answered_spec sound.served request
  rw [same]
  exact sound.toFaithful.session (served.perform (.request request))
    (grown.trans (session.perform_grows (.request request)))

/-- A request to disconnect ends the loop. Unless the writer fails, all that is queued by then is
written, the answer and the end of the session among it. Any other request leaves it open. -/
theorem Sound.request (sound : connection.Sound) (serving : connection.status = .open_)
    {payload : String} {request : Request} (decoded : Request.ofText? payload = some request) :
    let after := connection.receiveMessage payload
    after.Sound ∧ connection.session.outbox <+: after.session.outbox ∧
      if request.kind = .request ∧ request.command = "disconnect" then
        .response request.seq request.command (.ok .empty) ∈ after.session.outbox ∧
          .event .terminated ∈ after.session.outbox ∧
          (after.status = .ended ∧ after.written = after.session.outbox.length ∨
            after.status = .failed .writerClosed)
      else after.status = .open_ := by
  intro after
  have faithful := sound.answered request
  obtain ⟨session, served, grown, same⟩ := answered_spec sound.served request
  have grows := grown.trans (session.perform_grows (.request request))
  change connection.session.outbox <+: (session.request request).1.outbox at grows
  rw [← same] at grows
  have next := @receiveMessage_eq connection payload request decoded
  split
  · rename_i disconnects
    obtain ⟨exits, terminated, answer⟩ :=
      Session.request_disconnect served.settled disconnects.1 disconnects.2
    rw [← same] at exits terminated answer
    have told := faithful.served.told terminated
    obtain ⟨exited, kept, ended⟩ := exit_spec faithful serving
    have closes : after = Connection.exit
        { connection with session := (connection.answered request).1 } := by
      rw [if_pos exits] at next
      exact next
    rw [closes, kept]
    exact ⟨⟨exited, fun _ => by rw [kept]; exact terminated⟩, grows, answer, told, ended⟩
  · rename_i stays
    have goes : (connection.answered request).2 ≠ .exit := by
      rw [same]
      exact fun exits => stays (Session.exit_disconnects exits)
    have keeps : after = { connection with session := (connection.answered request).1 } := by
      rw [if_neg goes] at next
      exact next
    rw [keeps]
    exact ⟨⟨faithful, fun ended => absurd serving ended⟩, grows, serving⟩

end Transport.Connection

namespace Transport.Loop

open Framing (Stream)

variable {loop : Loop}

/-- While the loop goes on, the end of the stream is still to come. -/
structure Sound (loop : Loop) : Prop where
  connection : loop.connection.Sound
  stream : loop.connection.status = .open_ → Stream loop.inbound

/-- What the loop takes from the stream is a message, or it is the end of the stream and of the
loop. -/
theorem Sound.inbound (sound : loop.Sound) (serving : loop.connection.status = .open_) :
    (∃ payload rest, loop.inbound = .message payload :: rest ∧ Stream rest ∧
        loop.turn .inbound = ⟨loop.connection.receiveMessage payload, rest⟩) ∨
      (loop.inbound = [.closed] ∧
        loop.turn .inbound = ⟨{ loop.connection.shutdown with status := .ended }, []⟩) ∨
      ∃ failure, failure ≠ .writerClosed ∧ loop.inbound = [.failed failure] ∧
        loop.turn .inbound =
          ⟨{ loop.connection.shutdown with status := .failed failure }, []⟩ := by
  obtain ⟨payloads, last, inbound, ends⟩ := sound.stream serving
  cases payloads with
  | cons payload payloads =>
    rw [List.map_cons, List.cons_append] at inbound
    refine .inl ⟨payload, payloads.map .message ++ [last], inbound, ⟨payloads, last, rfl, ends⟩, ?_⟩
    simp only [turn, inbound, Connection.turn, serving, if_true, Connection.receive]
  | nil =>
    rw [List.map_nil, List.nil_append] at inbound
    right
    cases last with
    | message payload => contradiction
    | closed =>
      refine .inl ⟨inbound, ?_⟩
      simp only [turn, inbound, Connection.turn, serving, if_true, Connection.receive]
    | failed failure =>
      refine .inr ⟨failure, ends, inbound, ?_⟩
      simp only [turn, inbound, Connection.turn, serving, if_true, Connection.receive]

theorem Sound.turn (sound : loop.Sound) (pick : Pick) : (loop.turn pick).Sound := by
  by_cases serving : loop.connection.status = .open_
  · cases pick with
    | inbound =>
      rcases sound.inbound serving with ⟨payload, rest, -, stream, same⟩ | ⟨-, same⟩ |
        ⟨failure, other, -, same⟩
      · rw [same]
        refine ⟨?_, fun _ => stream⟩
        cases decoded : Request.ofText? payload with
        | none =>
          rw [Connection.receiveMessage, decoded]
          exact sound.connection
        | some request => exact (sound.connection.request serving decoded).1
      · rw [same]
        exact ⟨sound.connection.breaks serving (by simp), by simp⟩
      · rw [same]
        exact ⟨sound.connection.breaks serving (by simp [other]), by simp⟩
    | outbound =>
      simp only [Loop.turn, Connection.turn, serving, if_true]
      exact ⟨sound.connection.deliver serving, fun _ => sound.stream serving⟩
    | program step => exact ⟨sound.connection.perform step, sound.stream⟩
  · have still : ∀ choice, loop.connection.turn choice = loop.connection := fun _ => if_neg serving
    cases pick with
    | inbound =>
      simp only [Loop.turn]
      split
      · exact sound
      · rw [still]
        exact ⟨sound.connection, fun open_ => absurd open_ serving⟩
    | outbound =>
      simp only [Loop.turn, still]
      exact sound
    | program step => exact ⟨sound.connection.perform step, sound.stream⟩

theorem run_induction {P : Loop → Prop} (start : P loop) (keep : ∀ loop pick, P loop →
    P (loop.turn pick)) (picks : List Pick) : P (loop.run picks) := by
  induction picks using List.reverseRecOn with
  | nil => exact start
  | append_singleton picks pick ih =>
    rw [run, List.foldl_append]
    exact keep _ pick ih

theorem Sound.outbound (sound : loop.Sound) (serving : loop.connection.status = .open_)
    (free : loop.connection.capacity = none) :
    (loop.turn .outbound).connection.written =
      min (loop.connection.written + 1) loop.connection.session.outbox.length := by
  obtain ⟨connection, inbound⟩ := loop
  dsimp only at serving free ⊢
  have accepting : connection.status ≠ .failed .writerClosed := by simp [serving]
  have status : connection.write.status = .open_ := by
    rcases connection.write_spec with
      ⟨-, same⟩ | ⟨message, -, ⟨limited, -⟩ | ⟨capacity, -, same⟩⟩
    · exact same.symm ▸ serving
    · rw [limited] at free
      contradiction
    · exact same.symm ▸ serving
  have delivered : (Loop.turn ⟨connection, inbound⟩ .outbound).connection = connection.write := by
    simp only [Loop.turn, Connection.turn, serving, if_true, Connection.deliver, status]
  rw [delivered, Connection.written_eq accepting, Connection.written_eq (by simp [status])]
  have within : connection.taken ≤ connection.session.outbox.length := sound.connection.taken
  rcases connection.write_spec with
    ⟨none, same⟩ | ⟨message, found, ⟨limited, -⟩ | ⟨capacity, -, same⟩⟩
  · have all := List.getElem?_eq_none_iff.mp none
    rw [same]
    omega
  · rw [limited] at free
    contradiction
  · have more := (List.getElem?_eq_some_iff.mp found).1
    have taken : connection.write.taken = connection.taken + 1 := by rw [same]
    omega

theorem Sound.grows (sound : loop.Sound) (pick : Pick) :
    loop.connection.session.outbox <+: (loop.turn pick).connection.session.outbox := by
  have still : ¬loop.connection.status = .open_ → ∀ choice,
      loop.connection.turn choice = loop.connection := fun ended _ => if_neg ended
  have shut := loop.connection.session.perform_grows .shutdown
  cases pick with
  | program step => exact Session.perform_grows _ step
  | outbound =>
    by_cases serving : loop.connection.status = .open_
    · have written := loop.connection.write_session
      simp only [Loop.turn, Connection.turn, serving, if_true, Connection.deliver]
      split
      · simp only [written, List.prefix_refl]
      · simp only [Connection.shutdown, written]
        exact shut
    · simp only [Loop.turn, still serving, List.prefix_refl]
  | inbound =>
    by_cases serving : loop.connection.status = .open_
    · rcases sound.inbound serving with ⟨payload, rest, -, -, same⟩ | ⟨-, same⟩ |
        ⟨failure, -, -, same⟩
      · rw [same]
        cases decoded : Request.ofText? payload with
        | none => simp only [Connection.receiveMessage, decoded, List.prefix_refl]
        | some request => exact (sound.connection.request serving decoded).2.1
      · rw [same]
        exact shut
      · rw [same]
        exact shut
    · unfold Loop.turn
      dsimp only
      split
      · exact List.prefix_refl _
      · simp only [still serving, List.prefix_refl]

end Transport.Loop
end DebugAdapter
