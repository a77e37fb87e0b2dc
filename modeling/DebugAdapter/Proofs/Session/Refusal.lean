import DebugAdapter.Proofs.Session.Answers
import DebugAdapter.Proofs.Session.Ending
import DebugAdapter.Proofs.Session.Record

/-! A request that is refused changes nothing: all that comes of it is its answer. Requests that
are queued when their thread is let go are refused as if they had never been there. -/
namespace DebugAdapter

def Message.fails : Message → Bool
  | .response _ _ (.error _) => true
  | _ => false

def Granting (messages : List Message) : Prop :=
  ∀ message ∈ messages, message.fails = false

section Granting

variable {messages others : List Message}

theorem granting_nil : Granting [] := fun _ member => absurd member List.not_mem_nil

theorem Granting.append (first : Granting messages) (last : Granting others) :
    Granting (messages ++ others) := by
  intro message member
  rcases List.mem_append.mp member with earlier | later
  · exact first message earlier
  · exact last message later

theorem granting_events (events : List Event) : Granting (events.map .event) := by
  intro message member
  obtain ⟨event, _, rfl⟩ := List.mem_map.mp member
  rfl

theorem granting_response (request : Request) (body : Body) :
    Granting [.response request.seq request.command (.ok body)] := by
  intro message member
  obtain rfl := List.mem_singleton.mp member
  rfl

theorem granting_unanswered (unanswered : answered messages = []) : Granting messages := by
  intro message member
  have silent := List.filterMap_eq_nil_iff.mp unanswered message member
  cases message with
  | event => rfl
  | response => contradiction

end Granting

namespace Debugger

def queueing (debugger : Debugger) (queue : List Deferred) : Debugger :=
  { debugger with queue }

variable {debugger : Debugger}

/-- The requests that are queued at the end have no part in it but their answers. -/
theorem teardown_queued (live : debugger.control.state ≠ .terminated) :
    debugger.teardown = ((debugger.queueing []).teardown.1,
      debugger.queue.map (refusal .terminated) ++ (debugger.queueing []).teardown.2.1, true) := by
  have ends : debugger.control.terminate = some _ :=
    Execution.Control.terminate_eq_some.mpr ⟨live, rfl⟩
  simp only [teardown, queueing, ends, List.map_nil, List.nil_append]

theorem teardown_unqueued (drained : debugger.queue = []) : Granting debugger.teardown.2.1 := by
  obtain ⟨_, events, _, ⟨_, _, torn⟩ | ⟨_, torn⟩⟩ := debugger.teardown_spec
  · rw [torn, drained]
    exact granting_nil.append (granting_events events)
  · rw [torn]
    exact granting_events events

end Debugger

namespace Session

/-- `next` comes about as `alone` does, where certain requests were never queued, but for the
answers that refuse these. -/
def Apart (session alone next : Session) (refused : List Message) : Prop :=
  ∃ before after, Granting (before ++ after) ∧ alone.outbox = session.outbox ++ (before ++ after) ∧
    next = { alone with outbox := session.outbox ++ (before ++ refused ++ after) }

def queueing (session : Session) (queue : List Deferred) : Session :=
  session.modifyDebugger (·.queueing queue)

variable {session next : Session} {request : Request} {stop : Stop} {deferred : Deferred}

theorem apart_granting {sent : List Message} (outbox : next.outbox = session.outbox ++ sent)
    (granting : Granting sent) : Apart session next next [] := by
  refine ⟨sent, [], by rwa [List.append_nil], by rw [List.append_nil, outbox], ?_⟩
  rw [List.append_nil, List.append_nil, ← outbox]

theorem apply_granting (session : Session) (request : Request) {change : Change}
    (before : Granting change.before) : ∃ sent, Granting sent ∧
      (session.apply request change).outbox = session.outbox ++ sent :=
  ⟨_, before.append ((granting_response request change.body).append (granting_events change.after)),
    apply_outbox session request change⟩

theorem finish_apart (coherent : session.Coherent) (request : Request) (exit : Bool) :
    let next := (session.conclude request (.ok (session.debugger.finishSession exit))).1
    Apart session next next [] ∨
      Apart session ((session.queueing []).conclude request
          (.ok ((session.queueing []).debugger.finishSession exit))).1 next
        (session.debugger.queue.map (Debugger.refusal .terminated)) := by
  intro next
  by_cases ends : session.debugger.control.state = .terminated
  · have quiet : Granting (session.debugger.finishSession exit).before :=
      Debugger.teardown_unqueued (coherent.unqueued ends)
    obtain ⟨sent, granting, outbox⟩ := apply_granting session request quiet
    exact Or.inl (apart_granting outbox granting)
  · have torn := Debugger.teardown_queued ends
    have first : (session.debugger.queueing []).teardown.2.2 = true := by
      rw [@Debugger.teardown_queued (session.debugger.queueing []) ends]
    have granting : Granting ((session.debugger.queueing []).teardown.2.1 ++
        ([.response request.seq request.command (.ok .empty)] ++ [.event .terminated])) :=
      (Debugger.teardown_unqueued rfl).append
        ((granting_response request .empty).append (granting_events [.terminated]))
    refine Or.inr ⟨[], _, granting, ?_, ?_⟩
    · simp only [conclude, Debugger.finishSession, queueing, modifyDebugger, send, answer, emit,
        first, if_true, List.append_assoc, List.nil_append]
      rfl
    · simp only [next, conclude, Debugger.finishSession, queueing, modifyDebugger, send, answer,
        emit, torn, first, if_true, List.append_assoc, List.nil_append]
      rfl

/-- A control command is refused, or it is carried out; if it ends the session, then as if nothing
were queued. -/
theorem conclude_atomic (coherent : session.Coherent) (command : ControlCommand)
    (asked : request.kind = .request) :
    let next := (session.conclude request (session.debugger.carryOut command request)).1
    (∃ failure, next = session.answer request (.error failure)) ∨ Apart session next next [] ∨
      Apart session ((session.queueing []).conclude request
        ((session.queueing []).debugger.carryOut command request)).1 next
        (session.debugger.queue.map (Debugger.refusal .terminated)) := by
  intro next
  cases outcome : session.debugger.carryOut command request with
  | error failure =>
    have refused : Act session (some request) (session.answer request (.error failure)) :=
      .refuse request failure asked
    refine Or.inl ⟨failure, ?_⟩
    simp only [next, outcome, conclude, releaseIfReady_eq (refused.coherent coherent)]
  | ok change =>
    refine Or.inr ?_
    cases ending : (Command.control command).endsSession with
    | false =>
      obtain ⟨⟨events, _, before⟩, _⟩ := Debugger.carryOut_lasting outcome ending
      obtain ⟨sent, granting, outbox⟩ :=
        apply_granting session request (before ▸ granting_events events)
      simp only [next, outcome]
      exact Or.inl (apart_granting outbox granting)
    | true =>
      obtain ⟨exit, finished⟩ := Debugger.carryOut_ends request ending
      simp only [next, finished]
      exact finish_apart coherent request exit

/-- A request that is taken is refused at once, and then nothing else happens; or nothing is refused;
or those that are queued are refused, and all else is as if they were not there. -/
theorem handle_atomic (coherent : session.Coherent) (request : Request) :
    let next := (session.handle request).1
    (∃ failure, next = session.answer request (.error failure)) ∨ Apart session next next [] ∨
      Apart session ((session.queueing []).handle request).1 next
        (session.debugger.queue.map (Debugger.refusal .terminated)) := by
  intro next
  have idle (same : next.outbox = session.outbox) : Apart session next next [] :=
    apart_granting (by rw [same, List.append_nil]) granting_nil
  cases session.handling request with
  | other _ taken | deferred _ _ _ _ _ taken =>
    exact Or.inr (Or.inl (idle (by simp only [next, taken, defer, modifyDebugger])))
  | unknown _ _ taken | late _ _ _ _ _ taken | unserved _ _ _ _ _ taken =>
    exact Or.inl ⟨_, congrArg Prod.fst taken⟩
  | control command asked named permitted taken =>
    have atomic := conclude_atomic coherent command asked
    have alone := @handle_control (session.queueing []) request command asked named permitted
    simp only [next, taken, alone]
    exact atomic

/-- A request that lets the thread go asks the interpreter nothing, and its answer does not depend
on what is queued. -/
theorem inspect_resumes {debugger : Debugger} {reply : Reply} {how : Resume}
    (answers : (debugger.inspect stop deferred).outcome = .ok reply)
    (resumes : reply.resume = some how) (queue : List Deferred) :
    (debugger.inspect stop deferred).callbacks = [] ∧ reply.events = [] ∧
      reply.debugger = debugger ∧ (debugger.queueing queue).inspect stop deferred =
        { outcome := .ok { reply with debugger := debugger.queueing queue } } := by
  have resumption := (Debugger.inspect_resumption answers).symm.trans resumes
  obtain ⟨request, command⟩ := deferred
  cases command with
  | continue_ =>
    simp only [Debugger.inspect, Debugger.withArguments] at answers ⊢
    split at answers
    · simp only [Debugger.resumeAll] at answers ⊢
      split at answers
      · contradiction
      · rename_i known
        cases answers
        exact ⟨by rw [if_neg known], rfl, rfl, if_neg known⟩
    · contradiction
  | next | stepIn | stepOut =>
    simp only [Debugger.inspect, Debugger.withArguments] at answers ⊢
    split at answers
    · simp only [Debugger.step] at answers ⊢
      split at answers
      · split at answers <;> contradiction
      · rename_i own
        cases answers
        exact ⟨by rw [if_neg own], rfl, rfl, if_neg own⟩
    · contradiction
  | _ => simp [StoppedCommand.resumption?] at resumption

theorem returned_granting (drained : session.debugger.queue = []) (call : Call) (value : Bool) :
    ∃ sent, Granting sent ∧ (session.returned call value).outbox = session.outbox ++ sent := by
  unfold returned
  have quiet : session.outbox = session.outbox ++ [] := (List.append_nil _).symm
  split
  · exact ⟨[], granting_nil, quiet⟩
  · split
    · have told := granting_events (if session.debugger.teardown.2.2 then [.terminated] else [])
      refine ⟨_, (Debugger.teardown_unqueued drained).append told, ?_⟩
      simp only [shutdown, finish, emit, send, List.append_assoc]
    · exact ⟨[], granting_nil, quiet⟩

theorem send_release (session : Session) (messages : List Message) (stop : Stop) :
    (session.send messages).release stop =
      (session.unrecorded.release stop).following (session.send messages) := by
  have same : session.unrecorded.following (session.send messages) = session.send messages :=
    unrecorded_following (session.send messages)
  rw [← release_following, same]

theorem release_apart (drained : session.debugger.queue = []) (stop : Stop)
    {answers : List Message} (granting : Granting answers) (refused : List Message) :
    Apart session ((session.send answers).release stop)
      ((session.send (answers ++ refused)).release stop) refused := by
  obtain ⟨sent, returned, outbox⟩ := @returned_granting ({ session.unrecorded with
    stopped := none }.modifyDebugger (runThreads · stop.call.thread)) drained stop.call true
  rw [← release_eq] at outbox
  refine ⟨answers, sent, granting.append returned, ?_, ?_⟩
  · rw [send_release]
    simp only [following, outbox, send, List.append_assoc]
    rfl
  · rw [send_release, send_release]
    simp only [following, outbox, send, List.append_assoc]
    rfl

def freed (session : Session) (control : Execution.Control) : Session :=
  session.modifyDebugger fun debugger => { debugger with control, queue := [] }

theorem serveNext_runs {rest : List Deferred} {reply : Reply} {how : Resume}
    {control : Execution.Control} (held : session.stopped = some stop)
    (waiting : session.debugger.queue = deferred :: rest)
    (answers : ((session.debugger.queueing rest).inspect stop deferred).outcome = .ok reply)
    (resumes : reply.resume = some how)
    (resumed : session.debugger.control.resume stop.call.thread how.stepKind
      stop.call.interpreter.depth = some control) :
    session.serveNext = ((session.freed control).send
      ([.response deferred.request.seq deferred.request.command (.ok reply.body)] ++
        rest.map (Debugger.refusal .released))).release stop := by
  obtain ⟨silent, quiet, kept, _⟩ := inspect_resumes answers resumes []
  simp only [Debugger.queueing] at answers silent kept
  simp only [serveNext, held, waiting, modifyDebugger, answers, silent, Session.reply, resumes,
    kept, quiet, resume, note, emit, send, Session.answer, resumed, List.map_nil, List.append_nil,
    List.append_assoc]
  rfl

/-- The stopped thread takes a request: it refuses it, and then nothing else happens; or the
requests behind it stay queued and none is refused; or it runs on, as if nothing else were queued. -/
theorem serveNext_atomic (coherent : session.Coherent) {rest : List Deferred}
    (held : session.stopped = some stop) (waiting : session.debugger.queue = deferred :: rest) :
    (∃ failure asked, session.serveNext =
        ((session.queueing rest).note asked).answer deferred.request (.error failure)) ∨
      (Apart session session.serveNext session.serveNext [] ∧
        session.serveNext.debugger.queue = rest) ∨
      Apart session (session.queueing [deferred]).serveNext session.serveNext
        (rest.map (Debugger.refusal .released)) := by
  have served : session.serveNext = ((session.queueing rest).note
      ((session.debugger.queueing rest).inspect stop deferred).callbacks).reply stop
        deferred.request ((session.debugger.queueing rest).inspect stop deferred).outcome := by
    simp only [serveNext, held, waiting, queueing, modifyDebugger, Debugger.queueing]
  cases outcome : ((session.debugger.queueing rest).inspect stop deferred).outcome with
  | error failure =>
    rw [outcome] at served
    exact Or.inl ⟨failure, _, served⟩
  | ok reply =>
    obtain ⟨sources, same⟩ := Debugger.inspect_sources outcome
    cases resumes : reply.resume with
    | none =>
      refine Or.inr (Or.inl ⟨?_, ?_⟩)
      · refine apart_granting ?_ ((granting_events reply.events).append
          (granting_response deferred.request reply.body))
        rw [served, outcome]
        simp only [Session.reply, resumes, answer, emit, send, note, queueing, modifyDebugger,
          List.append_assoc]
      · rw [served, outcome]
        simp only [Session.reply, resumes, answer, emit, send, same]
        rfl
    | some how =>
      refine Or.inr (Or.inr ?_)
      obtain ⟨control, resumed⟩ := coherent.resumes (by simp [waiting]) held how
      obtain ⟨_, _, _, others⟩ := inspect_resumes outcome resumes []
      have answers := congrArg Inspected.outcome others
      have stands := @serveNext_runs (session.queueing [deferred]) stop deferred [] _ _ _ held
        rfl answers resumes resumed
      rw [serveNext_runs held waiting outcome resumes resumed, stands]
      exact @release_apart (session.freed control) rfl stop _
        (granting_response deferred.request reply.body) _

theorem carried_queue {command : ControlCommand} {change : Change}
    (drained : session.debugger.queue = [])
    (carried : session.debugger.carryOut command request = .ok change) :
    change.debugger.queue = [] := by
  cases ending : (Command.control command).endsSession with
  | false => exact (Debugger.carryOut_lasting carried ending).2.1.trans drained
  | true =>
    obtain ⟨exit, finished⟩ := Debugger.carryOut_ends request ending
    cases (finished session.debugger).symm.trans carried
    obtain ⟨_, _, _, ⟨_, _, torn⟩ | ⟨_, torn⟩⟩ := session.debugger.teardown_spec
    · simp only [Debugger.finishSession, torn, Debugger.bare]
    · simp only [Debugger.finishSession, torn, Debugger.bare, drained]

theorem conclude_queue {outcome : Except Failure Change} (drained : session.debugger.queue = [])
    (kept : ∀ change, outcome = .ok change → change.debugger.queue = []) :
    (session.conclude request outcome).1.debugger.queue = [] := by
  cases outcome with
  | error => exact (Debugger.releaseIfReady_queue _).trans drained
  | ok change => exact (Debugger.releaseIfReady_queue _).trans (kept change rfl)

theorem handle_queue (drained : session.debugger.queue = []) (request : Request) :
    (session.handle request).1.debugger.queue = [] ∨
      ∃ command, (session.handle request).1 = session.defer ⟨request, command⟩ := by
  cases session.handling request with
  | other _ taken | unknown _ _ taken | late _ _ _ _ _ taken | unserved _ _ _ _ _ taken =>
    rw [taken]
    exact Or.inl drained
  | control command _ _ _ taken =>
    rw [taken]
    exact Or.inl (conclude_queue drained fun change carried => carried_queue drained carried)
  | deferred command _ _ _ _ taken => exact Or.inr ⟨command, congrArg Prod.fst taken⟩

theorem settle_granting (coherent : session.Coherent) (drained : session.debugger.queue = []) :
    ∃ sent, Granting sent ∧ session.settle.outbox = session.outbox ++ sent := by
  obtain ⟨middle, acts, settled, advances, _⟩ := settle_moves drained coherent
  obtain ⟨earlier, follows⟩ := acts.follows coherent
  obtain ⟨later, outbox, _⟩ := advances.passes settled.coherent
  rw [follows.outbox, List.append_assoc] at outbox
  refine ⟨earlier ++ later, granting_unanswered ?_, outbox⟩
  generalize earlier ++ later = sent at outbox ⊢
  have account := acts.accounted coherent
  rw [← advances.accounted] at account
  have queue : session.settle.debugger.queue = [] := by rw [advances.queue, settled.drained]
  simp only [accounted, outbox, queue, drained, answered_append, List.map_nil, List.append_nil]
    at account
  have length := account.length_eq
  rw [List.length_append] at length
  exact List.length_eq_zero_iff.mp (by omega)

/-- An answer alone sets nothing going. -/
theorem refused_settle (settled : session.Settled) (rested : session.Rested) (asked : List Callback)
    (request : Request) (failure : Failure) :
    ((session.note asked).answer request (.error failure)).settle =
      (session.note asked).answer request (.error failure) := by
  have after : ((session.note asked).answer request (.error failure)).Settled :=
    ⟨settled.coherent.unmoved ⟨rfl, rfl, rfl, rfl, rfl, rfl, rfl, rfl⟩, settled.drained, settled.ends⟩
  have still : ((session.note asked).answer request (.error failure)).Rested :=
    rested.still (rested.awake.frame rfl rfl rfl) rfl rfl id
  exact still.settle_eq after

theorem granting_settle {taken : Session} {sent : List Message} (granting : Granting sent)
    (outbox : taken.outbox = session.outbox ++ sent) (coherent : taken.Coherent)
    (drained : taken.debugger.queue = []) :
    ∃ sent, Granting sent ∧ taken.settle.outbox = session.outbox ++ sent := by
  obtain ⟨more, silent, settles⟩ := settle_granting coherent drained
  exact ⟨sent ++ more, granting.append silent, by rw [settles, outbox, List.append_assoc]⟩

theorem defer_queue (drained : session.debugger.queue = []) (deferred : Deferred) :
    (session.defer deferred).debugger.queue = [deferred] := by
  simp only [defer, modifyDebugger, drained, List.nil_append]

theorem defer_unqueued (drained : session.debugger.queue = []) (deferred : Deferred) :
    (session.defer deferred).queueing [] = session := by
  have same : { session.debugger with queue := [] } = session.debugger := by rw [← drained]
  simp only [defer, queueing, modifyDebugger, Debugger.queueing, same]

theorem defer_serve (drained : session.debugger.queue = []) (deferred : Deferred) :
    (session.defer deferred).serve = (session.defer deferred).serveNext := by
  simp only [serve, defer_queue drained, List.foldl_cons, List.foldl_nil]

theorem defer_asks (drained : session.debugger.queue = []) (held : session.stopped = some stop)
    (deferred : Deferred) :
    (session.defer deferred).serve =
      (session.note (session.debugger.inspect stop deferred).callbacks).reply stop
        deferred.request (session.debugger.inspect stop deferred).outcome := by
  have kept : (session.defer deferred).stopped = some stop := held
  have served : (session.defer deferred).serveNext =
      (((session.defer deferred).queueing []).note
        (((session.defer deferred).queueing []).debugger.inspect stop deferred).callbacks).reply stop
        deferred.request
        (((session.defer deferred).queueing []).debugger.inspect stop deferred).outcome := by
    simp only [serveNext, defer_queue drained, kept, queueing, modifyDebugger, Debugger.queueing]
  rw [defer_serve drained, served, defer_unqueued drained]

theorem defer_atomic (settled : session.Settled) (rested : session.Rested) (deferred : Deferred)
    (coherent : (session.defer deferred).Coherent) :
    (∃ failure asked, (session.defer deferred).serve.settle =
        (session.note asked).answer deferred.request (.error failure)) ∨
      ∃ sent, Granting sent ∧
        (session.defer deferred).serve.settle.outbox = session.outbox ++ sent := by
  have waiting := defer_queue settled.drained deferred
  have after := (serveNext_acts coherent).coherent coherent
  have empty : (session.defer deferred).serveNext.debugger.queue = [] := by
    have fewer := serveNext_queue coherent
    rw [waiting] at fewer
    exact List.length_eq_zero_iff.mp (Nat.le_zero.mp fewer)
  obtain ⟨stop, held, _⟩ := coherent.serving (by simp [waiting])
  rw [defer_serve settled.drained]
  rcases serveNext_atomic coherent held waiting with
    ⟨failure, asked, refused⟩ | ⟨⟨before, later, granting, outbox, _⟩, _⟩ |
      ⟨before, later, granting, _, same⟩
  · rw [defer_unqueued settled.drained] at refused
    exact Or.inl ⟨failure, asked, by rw [refused, refused_settle settled rested]⟩
  · exact Or.inr (granting_settle granting outbox after empty)
  · refine Or.inr (granting_settle granting ?_ after empty)
    rw [same, List.map_nil, List.append_nil]
    rfl

/-- A request on its own is refused, and then all that comes of it is its answer, or nothing is
refused. -/
theorem request_atomic (settled : session.Settled) (rested : session.Rested) (request : Request) :
    (∃ failure asked, (session.request request).1 =
        (session.note asked).answer request (.error failure)) ∨
      ∃ sent, Granting sent ∧ (session.request request).1.outbox = session.outbox ++ sent := by
  have coherent := settled.coherent
  have handled := (handle_acts coherent request).coherent coherent
  rcases handle_queue settled.drained request with drained | ⟨command, defers⟩
  · simp only [Session.request, serve_drained drained]
    rcases handle_atomic coherent request with
      ⟨failure, refused⟩ | ⟨before, after, granting, outbox, _⟩ |
        ⟨before, after, granting, _, same⟩
    · have quiet : session.note [] = session := by simp only [note, List.append_nil]
      have still := refused_settle settled rested [] request failure
      rw [quiet] at still
      exact Or.inl ⟨failure, [], by rw [refused, still, quiet]⟩
    · exact Or.inr (granting_settle granting outbox handled drained)
    · refine Or.inr (granting_settle granting ?_ handled drained)
      rw [same, settled.drained, List.map_nil, List.append_nil]
  · rw [defers] at handled
    simp only [Session.request, defers]
    exact defer_atomic settled rested ⟨request, command⟩ handled

/-- The evaluation that keeps the interpreter busy is refused: but for its answer and its questions,
all is as if only the requests behind it had come. -/
theorem busy_atomic {first : Request} {failure : Failure} (busy : session.busyWith? first = some stop)
    (fails : (session.debugger.inspect stop ⟨first, .evaluate⟩).outcome = .error failure)
    (rest : List Request) :
    let alone := (session.handleAll rest).1.serve.settle
    ∃ before after asked, alone.outbox = session.outbox ++ before ++ after ∧
      (session.batch (first :: rest)).1 = { alone with
        outbox := session.outbox ++ before ++
          [.response first.seq first.command (.error failure)] ++ after
        callbacks := asked } := by
  let asked := (session.debugger.inspect stop ⟨first, .evaluate⟩).callbacks
  -- Both are this session, after different records.
  let bare := (session.unrecorded.handleAll rest).1
  have alone : (session.handleAll rest).1 = bare.following session := by
    rw [← session.unrecorded_following, handleAll_following, unrecorded_following]
  have noted : ((session.note asked).handleAll rest).1 = bare.following (session.note asked) := by
    rw [← (session.note asked).unrecorded_following, handleAll_following, unrecorded_following]
    rfl
  have goes (session : Session) :
      session.serve.settle = session.unrecorded.serve.settle.following session := by
    rw [← settle_following, ← serve_following, unrecorded_following]
  let later := bare.unrecorded.serve.settle
  have stands : (session.handleAll rest).1.serve.settle = later.following (bare.following session) := by
    rw [alone]
    exact goes _
  have whole : (session.batch (first :: rest)).1 = later.following
      ((bare.following (session.note asked)).answer first (.error failure)) := by
    simp only [batch, busy, fails, Except.map]
    rw [noted]
    exact goes _
  refine ⟨bare.outbox, later.outbox,
    session.callbacks ++ asked ++ bare.callbacks ++ later.callbacks, ?_, ?_⟩
  · rw [stands]
    simp only [following, List.append_assoc]
  · rw [whole, stands]
    simp only [following, answer, send, note, List.append_assoc]

/-- A request that is refused on its own changes nothing, and all that is sent is its answer. Within
a step too, at every moment, a request that is refused at once or by the stopped thread has no other
effect, and requests that are queued when the thread is let go or the session ends are refused as if
they had never been queued. -/
theorem failures_atomic (steps : List Step) :
    let session := ({} : Session).run steps
    (∀ request, let next := (session.perform (.request request)).1
      (∃ failure asked, next = (session.note asked).answer request (.error failure)) ∨
        ∃ sent, Granting sent ∧ next.outbox = session.outbox ++ sent) ∧
      (∀ taken later, Acts session taken later →
        (∀ request, let next := (later.handle request).1
          (∃ failure, next = later.answer request (.error failure)) ∨ Apart later next next [] ∨
            Apart later ((later.queueing []).handle request).1 next
              (later.debugger.queue.map (Debugger.refusal .terminated))) ∧
        ∀ deferred rest, later.debugger.queue = deferred :: rest →
          (∃ failure asked, later.serveNext =
              ((later.queueing rest).note asked).answer deferred.request (.error failure)) ∨
            (Apart later later.serveNext later.serveNext [] ∧
              later.serveNext.debugger.queue = rest) ∨
            Apart later (later.queueing [deferred]).serveNext later.serveNext
              (rest.map (Debugger.refusal .released))) ∧
      ∀ first rest stop failure, session.busyWith? first = some stop →
        (session.debugger.inspect stop ⟨first, .evaluate⟩).outcome = .error failure →
        let alone := (session.handleAll rest).1.serve.settle
        ∃ before after asked, alone.outbox = session.outbox ++ before ++ after ∧
          (session.batch (first :: rest)).1 = { alone with
            outbox := session.outbox ++ before ++
              [.response first.seq first.command (.error failure)] ++ after
            callbacks := asked } := by
  intro session
  have settled : session.Settled := run_settled steps
  refine ⟨request_atomic settled (run_rested steps), fun taken later acts => ?_,
    fun first rest stop failure busy fails => busy_atomic busy fails rest⟩
  have coherent := acts.coherent settled.coherent
  refine ⟨handle_atomic coherent, fun deferred rest waiting => ?_⟩
  obtain ⟨stop, held, _⟩ := coherent.serving (by simp [waiting])
  exact serveNext_atomic coherent held waiting

end Session
end DebugAdapter
