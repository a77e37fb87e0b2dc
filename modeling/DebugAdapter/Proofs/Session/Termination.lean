import DebugAdapter.Proofs.Session.LiveThreads
import DebugAdapter.Proofs.Session.Panics

/-! What ends a session: a request for the end, the program, or a panic whose thread is let go. In
whatever state the session was, all calls return then, and from there on they return at once. -/
namespace DebugAdapter

def Call.panics (call : Call) : Bool :=
  match call.errand with
  | .line .. => false
  | .exception record => record.fatal

/-- Whether a request lets a stopped thread go: it names this thread, or it asks that all run on and
names one that is known. -/
def Debugger.letsGo (debugger : Debugger) (thread : Nat) (request : Request) : Bool :=
  match Command.ofName? request.command, Arguments.read? Arguments.thread request with
  | some (.stopped command), some id =>
    match command.resumption? with
    | some .run => id = thread || (debugger.registry.find? id).isSome
    | some (.step _) => id = thread
    | none => false
  | _, _ => false

theorem Debugger.letsGo_iff {debugger : Debugger} {stop : Stop} {request : Request}
    {command : StoppedCommand} (named : Command.ofName? request.command = some (.stopped command)) :
    debugger.letsGo stop.call.thread request = true ↔
      ∃ reply how, (debugger.inspect stop ⟨request, command⟩).outcome = .ok reply ∧
        reply.resume = some how := by
  cases stays : command.resumption? with
  | none =>
    refine iff_of_false ?_ ?_
    · cases read : Arguments.read? Arguments.thread request <;> simp [letsGo, named, read, stays]
    · rintro ⟨reply, how, answers, resumes⟩
      cases resumes.symm.trans ((inspect_resumption answers).trans stays)
  | some how =>
    cases read : Arguments.read? Arguments.thread request with
    | none =>
      cases command with
      | continue_ | next | stepIn | stepOut =>
        simp [letsGo, named, read, inspect, withArguments, Inspected.fail]
      | _ => contradiction
    | some id =>
      cases command with
      | continue_ =>
        cases stays
        simp only [letsGo, named, read, StoppedCommand.resumption?, inspect, withArguments,
          resumeAll]
        by_cases known : id = stop.call.thread <;> cases debugger.registry.find? id <;>
          simp [known, Inspected.fail]
      | next | stepIn | stepOut =>
        cases stays
        simp only [letsGo, named, read, StoppedCommand.resumption?, inspect, withArguments, step]
        by_cases own : id = stop.call.thread <;> cases debugger.registry.find? id <;>
          simp [own, Inspected.fail]
      | _ => contradiction

namespace Session

/-- Whether a request lets a thread go that has stopped at a panic. -/
def endsPanic (session : Session) (request : Request) : Bool :=
  (session.stopped.map (·.call)).any fun call =>
    call.panics && session.debugger.letsGo call.thread request

/-- Whether the session ends on a request. -/
def endsOn (session : Session) (request : Request) : Bool :=
  request.command ∈ ["terminate", "disconnect"] || session.endsPanic request

/-- Whether the session ends in a step. -/
def endsIn (session : Session) : Step → Bool
  | .shutdown => true
  | step => step.requests.any session.endsOn

/-- The handles of the calls that have returned and of those that have not. -/
def handles (session : Session) : List Nat :=
  session.finished.map (·.1) ++ session.calls.map (·.handle)

/-- The session is over, or it will be as soon as its queue is served. -/
def Expires (session : Session) : Prop :=
  session.debugger.control.state = .terminated ∨
    ∃ deferred ∈ session.debugger.queue, session.endsPanic deferred.request = true

variable {session next : Session} {request : Request}

/-- As far as its end is concerned, the session is the same. -/
structure Stays (session next : Session) : Prop where
  state : next.debugger.control.state = .terminated ↔ session.debugger.control.state = .terminated
  registry : next.debugger.registry = session.debugger.registry
  stopped : next.stopped.map (·.call) = session.stopped.map (·.call)
  blocked : next.blocked = session.blocked
  finished : next.finished = session.finished

theorem Stays.handles (stays : Stays session next) : next.handles = session.handles := by
  simp only [Session.handles, calls, stays.finished, stays.stopped, stays.blocked]

theorem Stays.endsPanic (stays : Stays session next) : next.endsPanic = session.endsPanic := by
  funext request
  simp only [Session.endsPanic, Debugger.letsGo, stays.stopped, stays.registry]

theorem handle_ends (asked : request.kind = .request)
    (closes : request.command ∈ ["terminate", "disconnect"]) :
    (session.handle request).1.debugger.control.state = .terminated := by
  obtain ⟨command, named, ending⟩ := closing_command closes
  obtain ⟨exit, finished⟩ := Debugger.carryOut_ends request ending
  have ended := (close_ended session request exit).state
  simp only [handle_control asked named (.inl ending), finished, conclude]
  exact (releaseIfReady_threads _).2.2 ended

theorem conclude_stays (session : Session) (request : Request) {command : ControlCommand}
    (lasts : (Command.control command).endsSession = false) :
    Stays session (session.conclude request (session.debugger.carryOut command request)).1 ∧
      (session.conclude request (session.debugger.carryOut command request)).1.debugger.queue =
        session.debugger.queue := by
  have state (debugger : Debugger) : debugger.releaseIfReady.control.state = .terminated ↔
      debugger.control.state = .terminated :=
    ⟨fun ends => releaseIfReady_over ends ▸ ends, (releaseIfReady_threads debugger).2.2⟩
  cases outcome : session.debugger.carryOut command request with
  | error failure =>
    exact ⟨⟨state _, (releaseIfReady_threads _).1, rfl, rfl, rfl⟩, Debugger.releaseIfReady_queue _⟩
  | ok change =>
    have kept := (carryOut_threads outcome lasts).1
    refine ⟨⟨?_, (releaseIfReady_threads _).1.trans kept, rfl, rfl, rfl⟩,
      (Debugger.releaseIfReady_queue _).trans (Debugger.carryOut_lasting outcome lasts).2.1⟩
    rw [← Debugger.carryOut_state outcome lasts]
    exact state change.debugger

theorem Expires.of_stays (stays : Stays session next)
    (queue : next.debugger.queue = session.debugger.queue) : next.Expires ↔ session.Expires := by
  simp only [Expires, stays.state, stays.endsPanic, queue]

theorem endsPanic_unstopped (unstopped : session.stopped = none) (request : Request) :
    session.endsPanic request = false := by
  simp [endsPanic, unstopped]

theorem endsPanic_other (other : ∀ command, Command.ofName? request.command =
    some (.stopped command) → command.resumption? = none) : session.endsPanic request = false := by
  have stays (debugger : Debugger) (thread : Nat) : debugger.letsGo thread request = false := by
    unfold Debugger.letsGo
    split
    · rename_i command _ named _
      simp only [other command named]
    · rfl
  simp [endsPanic, stays]

/-- A request that is taken ends the session at once, is queued for the stopped thread, or has no
part in its end. -/
theorem handle_cases (coherent : session.Coherent)
    (live : session.debugger.control.state ≠ .terminated) (request : Request) :
    let next := (session.handle request).1
    (next.debugger.control.state = .terminated ∧ request.kind = .request ∧
        request.command ∈ ["terminate", "disconnect"]) ∨
      (Stays session next ∧
        ((next.debugger.queue = session.debugger.queue ∧
            ¬(request.kind = .request ∧ session.endsOn request = true)) ∨
          ∃ command, next.debugger.queue = session.debugger.queue ++ [⟨request, command⟩] ∧
            request.kind = .request ∧ request.command ∉ ["terminate", "disconnect"])) := by
  have unended : session.isTerminated = false := by
    simpa only [Bool.not_eq_true] using (isTerminated_iff coherent).not.mpr live
  have idle (lasts : request.command ∉ ["terminate", "disconnect"])
      (unasked : session.endsPanic request = false) :
      ¬(request.kind = .request ∧ session.endsOn request = true) := by
    simp [endsOn, lasts, unasked]
  cases session.handling request with
  | other kind taken =>
    rw [taken]
    exact .inr ⟨⟨.rfl, rfl, rfl, rfl, rfl⟩, .inl ⟨rfl, fun asked => kind asked.1⟩⟩
  | unknown asked unnamed taken =>
    have lasts : request.command ∉ ["terminate", "disconnect"] := fun closes => by
      obtain ⟨command, named, _⟩ := closing_command closes
      cases unnamed.symm.trans named
    rw [taken]
    exact .inr ⟨⟨.rfl, rfl, rfl, rfl, rfl⟩,
      .inl ⟨rfl, idle lasts (endsPanic_other (by simp [unnamed]))⟩⟩
  | late _ _ _ ends => exact absurd ends (by simp [unended])
  | control command asked named _ taken =>
    by_cases closes : request.command ∈ ["terminate", "disconnect"]
    · exact .inl ⟨handle_ends asked closes, asked, closes⟩
    · have lasts : (Command.control command).endsSession = false := by
        simpa only [Bool.not_eq_true] using (Command.endsSession_iff named).not.mpr closes
      obtain ⟨stays, queue⟩ := conclude_stays session request lasts
      rw [taken]
      exact .inr ⟨stays, .inl ⟨queue, idle closes (endsPanic_other (by simp [named]))⟩⟩
  | deferred command asked named _ _ taken =>
    have lasts := (Command.endsSession_iff named).not.mp Bool.false_ne_true
    rw [taken]
    exact .inr ⟨⟨.rfl, rfl, rfl, rfl, rfl⟩, .inr ⟨command, rfl, asked, lasts⟩⟩
  | unserved command asked named _ free taken =>
    have lasts := (Command.endsSession_iff named).not.mp Bool.false_ne_true
    have unstopped : session.stopped = none := by
      by_contra held
      obtain ⟨stop, held⟩ := Option.ne_none_iff_exists'.mp held
      exact absurd (coherent.isStopped live held) (by simp [free])
    rw [taken]
    exact .inr ⟨⟨.rfl, rfl, rfl, rfl, rfl⟩,
      .inl ⟨rfl, idle lasts (endsPanic_unstopped unstopped request)⟩⟩

/-- A session that is to end after a request is taken was to end before, or ends on the request. -/
theorem handle_expires (coherent : session.Coherent) (request : Request) :
    (session.handle request).1.Expires ↔
      session.Expires ∨ (request.kind = .request ∧ session.endsOn request = true) := by
  by_cases ends : session.debugger.control.state = .terminated
  · exact iff_of_true (.inl ((handle_acts coherent request).ended coherent ends)) (.inl (.inl ends))
  · rcases handle_cases coherent ends request with ⟨ended, asked, closes⟩ |
      ⟨stays, ⟨queue, idle⟩ | ⟨command, queue, asked, lasts⟩⟩
    · exact iff_of_true (.inl ended) (.inr ⟨asked, by simp [endsOn, closes]⟩)
    · rw [Expires.of_stays stays queue, or_iff_left idle]
    · have last : session.endsOn request = session.endsPanic request := by simp [endsOn, lasts]
      simp only [Expires, stays.state, stays.endsPanic, queue, List.mem_append, List.mem_singleton,
        or_and_right, exists_or, exists_eq_left, asked, last, true_and, or_assoc]

theorem handleAll_expires (coherent : session.Coherent) (requests : List Request) :
    (session.handleAll requests).1.Expires ↔ session.Expires ∨
      (requests.filter (·.kind = .request)).any session.endsOn = true := by
  induction requests generalizing session with
  | nil => simp [handleAll]
  | cons request rest ih =>
    have handled := handle_expires coherent request
    have later : (session.handle request).1.Expires ∨
        (session.handle request).1.endsOn = session.endsOn := by
      by_cases ends : session.debugger.control.state = .terminated
      · exact .inl (handled.mpr (.inl (.inl ends)))
      · rcases handle_cases coherent ends request with ⟨ended, _⟩ | ⟨stays, _⟩
        · exact .inl (.inl ended)
        · exact .inr (by funext other; simp only [endsOn, stays.endsPanic])
    have still : ((session.handle request).1.Expires ∨
          (rest.filter (·.kind = .request)).any (session.handle request).1.endsOn = true) ↔
        (session.handle request).1.Expires ∨
          (rest.filter (·.kind = .request)).any session.endsOn = true := by
      rcases later with expires | same
      · exact iff_of_true (.inl expires) (.inl expires)
      · rw [same]
    rw [handleAll, ih ((handle_acts coherent request).coherent coherent), still, handled]
    by_cases asked : request.kind = .request <;> simp [asked, or_assoc]

theorem handle_handles (session : Session) (request : Request) :
    (session.handle request).1.handles = session.handles := by
  obtain ⟨stopped, blocked, finished⟩ := handle_calls session request
  simp only [handles, calls, finished, stopped, blocked]

theorem handleAll_handles (session : Session) (requests : List Request) :
    (session.handleAll requests).1.handles = session.handles := by
  induction requests generalizing session with
  | nil => rfl
  | cons request rest ih => exact (ih _).trans (handle_handles session request)

theorem returned_finished (session : Session) (call : Call) (value : Bool) :
    (session.returned call value).finished.map (·.1) =
      session.finished.map (·.1) ++ [call.handle] := by
  unfold returned
  split
  · simp [finish]
  · split
    · simp [finish, shutdown, emit, send]
    · simp [finish]

theorem release_handles {stop : Stop} (held : session.stopped = some stop) :
    (session.release stop).handles = session.handles := by
  obtain ⟨stopped, blocked, _⟩ := returned_spec ({ session with stopped := none }.modifyDebugger
    (runThreads · stop.call.thread)) stop.call true
  simp only [handles, calls, release_eq, returned_finished, stopped, blocked]
  simp [modifyDebugger, held]

theorem release_terminated (live : session.debugger.control.state ≠ .terminated) (stop : Stop) :
    (session.release stop).debugger.control.state = .terminated ↔ stop.call.panics = true := by
  cases errand : stop.call.errand with
  | line => simpa [release, Call.panics, errand, finish, modifyDebugger, runThreads] using live
  | exception record =>
    simp only [Call.panics, errand]
    cases fatal : record.fatal with
    | true => exact iff_of_true (release_ends errand fatal) rfl
    | false => simpa [release, errand, fatal, finish, modifyDebugger, runThreads] using live

/-- A request that does not let the thread go leaves it stopped. -/
theorem serveNext_stays {stop : Stop} {deferred : Deferred} {rest : List Deferred}
    (held : session.stopped = some stop) (waiting : session.debugger.queue = deferred :: rest)
    (stays : ∀ reply, ((session.debugger.queueing rest).inspect stop deferred).outcome = .ok reply →
      reply.resume = none) :
    Stays session session.serveNext ∧ session.serveNext.debugger.queue = rest := by
  simp only [Debugger.queueing] at stays
  simp only [serveNext, held, waiting, modifyDebugger]
  cases outcome : (Debugger.inspect _ stop deferred).outcome with
  | error failure => exact ⟨⟨.rfl, rfl, by rw [held]; rfl, rfl, rfl⟩, rfl⟩
  | ok reply =>
    obtain ⟨sources, same⟩ := Debugger.inspect_sources outcome
    simp only [Session.reply, stays reply outcome, same]
    exact ⟨⟨.rfl, rfl, by rw [held]; rfl, rfl, rfl⟩, rfl⟩

theorem serveNext_expires (coherent : session.Coherent) :
    (session.serveNext.Expires ↔ session.Expires) ∧
      session.serveNext.handles = session.handles := by
  cases waiting : session.debugger.queue with
  | nil =>
    have same : session.serveNext = session := by
      unfold serveNext
      split
      · simp_all
      · rfl
    rw [same]
    exact ⟨.rfl, rfl⟩
  | cons deferred rest =>
    obtain ⟨stop, held, _⟩ := coherent.serving (by simp [waiting])
    obtain ⟨reason, state⟩ := coherent.queued.state (by simp [waiting])
    have live : session.debugger.control.state ≠ .terminated := by simp [state]
    have named := coherent.queued.commands deferred (by simp [waiting])
    have lets := @Debugger.letsGo_iff (session.debugger.queueing rest) stop deferred.request
      deferred.command named
    have ends (request : Request) : session.endsPanic request = true ↔
        stop.call.panics = true ∧ session.debugger.letsGo stop.call.thread request = true := by
      simp [endsPanic, held]
    by_cases goes : session.debugger.letsGo stop.call.thread deferred.request = true
    · -- The thread runs on, so what is left of the queue counts no more.
      obtain ⟨reply, how, answers, resumes⟩ := lets.mp goes
      obtain ⟨control, resumed⟩ := coherent.resumes (by simp [waiting]) held how
      rw [serveNext_runs held waiting answers resumes resumed]
      generalize
        [Message.response deferred.request.seq deferred.request.command (.ok reply.body)] ++
          rest.map (Debugger.refusal .released) = sent
      have kept : ((session.freed control).send sent).stopped = some stop := held
      have left : (((session.freed control).send sent).release stop).stopped = none :=
        (returned_spec _ stop.call true).1
      have running : ((session.freed control).send sent).debugger.control.state ≠ .terminated :=
        (Execution.Control.resume_runs state resumed).2.1
      refine ⟨?_, release_handles kept⟩
      simp only [Expires, endsPanic_unstopped left, release_terminated running stop,
        Bool.false_eq_true, and_false, exists_false, or_false, ends]
      refine ⟨fun panics => .inr ⟨deferred, by simp [waiting], panics, goes⟩, ?_⟩
      rintro (ended | ⟨_, _, panics, _⟩)
      · exact absurd ended live
      · exact panics
    · have stays : ∀ reply, ((session.debugger.queueing rest).inspect stop deferred).outcome =
          .ok reply → reply.resume = none := by
        intro reply answers
        by_contra resumes
        obtain ⟨how, resumes⟩ := Option.ne_none_iff_exists'.mp resumes
        exact goes (lets.mpr ⟨reply, how, answers, resumes⟩)
      obtain ⟨stays, queue⟩ := serveNext_stays held waiting stays
      refine ⟨?_, stays.handles⟩
      simp [Expires, stays.state, stays.endsPanic, queue, waiting, ends, goes]

theorem rounds_expire (requests : List Deferred) (coherent : session.Coherent) :
    let next := requests.foldl (fun session _ => session.serveNext) session
    (next.Expires ↔ session.Expires) ∧ next.handles = session.handles := by
  induction requests generalizing session with
  | nil => exact ⟨.rfl, rfl⟩
  | cons request rest ih =>
    obtain ⟨expires, handles⟩ := serveNext_expires coherent
    obtain ⟨later, kept⟩ := ih ((serveNext_acts coherent).coherent coherent)
    exact ⟨later.trans expires, kept.trans handles⟩

theorem foldl_leave_finished (calls : List Call) (session : Session) :
    (calls.foldl leave session).finished.map (·.1) =
      session.finished.map (·.1) ++ calls.map (·.handle) := by
  induction calls generalizing session with
  | nil => simp
  | cons call rest ih =>
    rw [List.foldl_cons, ih, leave_eq, returned_finished]
    simp

theorem settle_finished (ends : session.isTerminated = true) :
    session.settle.finished.map (·.1) = session.handles := by
  simp only [settle, ends, if_true, foldl_leave_finished]
  cases held : session.stopped with
  | none => simp [handles, calls, held]
  | some stop => simp [handles, calls, held, release_eq, returned_finished, modifyDebugger]

theorem settle_terminated (coherent : session.Coherent) (drained : session.debugger.queue = []) :
    session.settle.debugger.control.state = .terminated ↔
      session.debugger.control.state = .terminated := by
  by_cases ends : session.debugger.control.state = .terminated
  · exact iff_of_true ((settle_over drained coherent ends).1.ended coherent ends) ends
  · have settled : session.Settled := ⟨coherent, drained, fun ended => absurd ended ends⟩
    exact iff_of_false ((settle_advances settled).live ends) ends

theorem serve_terminated (coherent : session.Coherent) :
    (session.serve.settle.debugger.control.state = .terminated ↔ session.Expires) ∧
      (session.Expires → session.serve.settle.finished.map (·.1) = session.handles) := by
  obtain ⟨expires, handles⟩ := rounds_expire session.debugger.queue coherent
  obtain ⟨acts, drained⟩ := serve_acts coherent
  have served : session.serve.debugger.control.state = .terminated ↔ session.Expires := by
    rw [← expires]
    change _ ↔ session.serve.Expires
    simp [Expires, drained]
  have after := acts.coherent coherent
  refine ⟨(settle_terminated after drained).trans served, fun later => ?_⟩
  rw [settle_finished ((isTerminated_iff after).mpr (served.mpr later))]
  exact handles

/-- The session is over if it was to end, and then all its calls have returned. -/
def Terminates (session next : Session) (ends : Bool) : Prop :=
  (next.debugger.control.state = .terminated ↔ ends = true) ∧
    (ends = true → next.finished.map (·.1) = session.handles)

theorem serve_terminates {ends : Bool} (coherent : next.Coherent)
    (expires : next.Expires ↔ ends = true) (handles : next.handles = session.handles) :
    Terminates session next.serve.settle ends := by
  obtain ⟨terminated, returned⟩ := serve_terminated coherent
  exact ⟨terminated.trans expires, fun ending => (returned (expires.mpr ending)).trans handles⟩

theorem lasts_terminates (lasts : next.debugger.control.state ≠ .terminated) :
    Terminates session next false :=
  ⟨iff_of_false lasts (by simp), by simp⟩

theorem Settled.unexpired (settled : session.Settled)
    (live : session.debugger.control.state ≠ .terminated) : ¬session.Expires := by
  simp [Expires, live, settled.drained]

theorem request_terminates (settled : session.Settled)
    (live : session.debugger.control.state ≠ .terminated) (request : Request) :
    Terminates session (session.request request).1 (session.endsIn (.request request)) := by
  have coherent := settled.coherent
  have expires := (handle_expires coherent request).trans (or_iff_right (settled.unexpired live))
  refine serve_terminates ((handle_acts coherent request).coherent coherent) (expires.trans ?_)
    (handle_handles session request)
  by_cases asked : request.kind = .request <;> simp [endsIn, Step.requests, asked]

theorem Gathers.expires {requests : List Request} (gathers : Gathers session requests next)
    (coherent : session.Coherent) :
    next.Expires ↔ session.Expires ∨ session.endsIn (.batch requests) = true := by
  cases gathers with
  | turns => exact handleAll_expires coherent requests
  | busy first rest asked outcome taken named =>
    -- An evaluation lets nobody go, so the session ends on what comes behind it.
    have harmless : session.endsOn first = false := by
      have stays : session.endsPanic first = false := by
        refine endsPanic_other fun command other => ?_
        cases named.symm.trans other
        rfl
      have lasts := (Command.endsSession_iff named).not.mp (by decide)
      simp [endsOn, lasts, stays]
    have whole : session.endsIn (.batch (first :: rest)) = session.endsIn (.batch rest) := by
      simp [endsIn, Step.requests, taken, harmless]
    rw [whole]
    exact handleAll_expires (coherent.note asked) rest

theorem Gathers.handles {requests : List Request} (gathers : Gathers session requests next) :
    next.handles = session.handles := by
  cases gathers with
  | turns => exact handleAll_handles session requests
  | busy first rest asked outcome => exact handleAll_handles (session.note asked) rest

theorem batch_terminates (settled : session.Settled)
    (live : session.debugger.control.state ≠ .terminated) (requests : List Request) :
    Terminates session (session.batch requests).1 (session.endsIn (.batch requests)) := by
  rcases batch_gathers session requests with ⟨rfl, same⟩ | ⟨middle, gathers, same⟩
  · rw [same]
    exact lasts_terminates live
  · have coherent := settled.coherent
    rw [same]
    exact serve_terminates (gathers.coherent coherent)
      ((gathers.expires coherent).trans (or_iff_right (settled.unexpired live))) gathers.handles

theorem shutdown_terminates (settled : session.Settled) :
    Terminates session session.shutdown.1.settle true := by
  have ended : Acts session [] session.shutdown.1 := .still .shutdown
  have coherent := ended.coherent settled.coherent
  have ends := (shutdown_ended session).state
  refine ⟨iff_of_true ?_ rfl, fun _ => ?_⟩
  · exact (settle_terminated coherent (ended.drained settled.drained)).mpr ends
  · exact settle_finished ((isTerminated_iff coherent).mpr ends)

theorem origin_control (session : Session) (place : Option (Interpreter × Nat)) :
    (session.origin place).1.debugger.control = session.debugger.control := by
  cases place with
  | none => rfl
  | some place =>
    obtain ⟨interpreter, line⟩ := place
    have found : Aside session (session.discover interpreter interpreter.chunk) :=
      .discover interpreter interpreter.chunk
    exact found.quiet.control

theorem perform_terminates (settled : session.Settled)
    (live : session.debugger.control.state ≠ .terminated) (step : Step) :
    Terminates session (session.perform step).1 (session.endsIn step) := by
  have origin (place : Option (Interpreter × Nat)) :
      (session.origin place).1.debugger.control.state ≠ .terminated :=
    origin_control session place ▸ live
  have captured {found : Session} (category : Output.Category) (bytes : List UInt8)
      (attribution : Option Output.Attribution)
      (lasts : found.debugger.control.state ≠ .terminated) :
      (found.capture category bytes attribution).debugger.control.state ≠ .terminated := by
    rwa [(capture_quiet found category bytes attribution).control]
  have configured (change : Except Config.Error Config.Store) :
      (session.configure change).1.debugger.control.state ≠ .terminated := by
    rwa [(configure_quiet session change).control]
  cases step with
  | request request => exact request_terminates settled live request
  | batch requests => exact batch_terminates settled live requests
  | shutdown => exact shutdown_terminates settled
  | hook | lines | exception | panic | attach =>
    exact lasts_terminates ((perform_advances settled rfl).live live)
  | detach handle announce =>
    refine lasts_terminates ?_
    obtain ⟨registry, control, news, _, _, _, _, changed, same⟩ :=
      detach_spec settled.coherent.control handle announce
    simp only [perform, same]
    rcases changed with rfl | ⟨_, rfl⟩
    · exact live
    · simp
  | print bytes place =>
    refine lasts_terminates ?_
    simp only [perform, print]
    split
    · exact captured _ _ _ (origin place)
    · exact origin place
  | capture category bytes place => exact lasts_terminates (captured _ _ _ (origin place))
  | native stream bytes =>
    refine lasts_terminates ?_
    simp only [perform, native]
    split
    · exact captured _ _ _ live
    · exact live
  | updateConfig | loadDefaults => exact lasts_terminates (configured _)
  | config => exact lasts_terminates live

/-- The session ends when a thread that has stopped at a panic is told to go on. -/
theorem perform_resumes (settled : session.Settled) {stop : Stop} {record : ExceptionRecord}
    (held : session.stopped = some stop) (errand : stop.call.errand = .exception record)
    (fatal : record.fatal = true) {request : Request} {command : StoppedCommand} {how : Resume}
    (asked : request.kind = .request)
    (known : Command.ofName? request.command = some (.stopped command))
    (resumes : command.resumption? = some how)
    (named : Arguments.read? Arguments.thread request = some stop.call.thread) :
    (session.perform (.request request)).1.debugger.control.state = .terminated := by
  have live : session.debugger.control.state ≠ .terminated := fun ends => by
    simp [(settled.ends ends).1] at held
  have goes : session.debugger.letsGo stop.call.thread request = true := by
    cases how <;> simp [Debugger.letsGo, known, named, resumes]
  have panics : stop.call.panics = true := by simp [Call.panics, errand, fatal]
  refine (perform_terminates settled live (.request request)).1.mpr ?_
  simp [endsIn, Step.requests, asked, endsOn, endsPanic, held, goes, panics]

/-- A session ends once: when the client asks for the end, when the program shuts it down, or when a
thread is let go that has stopped at a panic. The step that ends it makes all calls return and leaves
no thread, no queued request and no output behind. After it calls return at once and requests are
refused, unless they ask for the end once more. -/
theorem termination_absorbing (steps : List Step) :
    let session := ({} : Session).run steps
    session.outbox.countP Message.ends =
        (if session.debugger.control.state = .terminated then 1 else 0) ∧
      (session.debugger.control.state ≠ .terminated → ∀ step,
        let after := (session.perform step).1
        (after.debugger.control.state = .terminated ↔ session.endsIn step = true) ∧
        (after.debugger.control.state = .terminated →
          after.outbox.countP Message.ends = 1 ∧
          after.debugger.registry.threads = [] ∧ after.stopped = none ∧ after.blocked = [] ∧
          after.debugger.control.stopper = none ∧ after.debugger.queue = [] ∧
          after.debugger.output.Drained ∧
          after.finished.map (·.1) =
            session.finished.map (·.1) ++ session.calls.map (·.handle))) ∧
      (session.debugger.control.state = .terminated →
        (∀ step, (session.perform step).1.debugger.control.state = .terminated) ∧
        (∀ handle interpreter event, session.perform (.hook handle interpreter event) =
          (session.finish handle none, .call .done)) ∧
        (∀ handle places, session.perform (.lines handle places) =
          (places.foldl (fun session _ => session.finish handle none) session,
            .count places.length)) ∧
        (∀ handle interpreter kind message,
          session.perform (.exception handle interpreter kind message) =
            (session.finish handle (some false), .call .done)) ∧
        (∀ handle interpreter message, session.perform (.panic handle interpreter message) =
          (session.finish handle none, .call .done)) ∧
        (∀ request, request.kind = .request →
          if request.command ∈ ["terminate", "disconnect"] then
            (session.perform (.request request)).1.outbox =
              session.outbox ++ [.response request.seq request.command (.ok .empty)]
          else ∃ failure, session.perform (.request request) =
            (session.answer request (.error failure), .disposition .handled)) ∧
        ∀ requests, (session.perform (.batch requests)).1 =
          session.run (requests.map .request)) := by
  intro session
  have settled : session.Settled := run_settled steps
  refine ⟨run_ends steps, fun live step => ?_, fun ends => ?_⟩
  · obtain ⟨terminates, returned⟩ := perform_terminates settled live step
    refine ⟨terminates, fun ends => ?_⟩
    have once := run_ends (steps ++ [step])
    rw [run_append, if_pos ends] at once
    have after := perform_settled settled step
    obtain ⟨threads, output⟩ := perform_ends settled step live ends
    obtain ⟨unstopped, empty⟩ := after.ends ends
    have free := after.coherent.control.stopper_none (by simp [ends])
    exact ⟨once, threads, unstopped, empty, free, after.drained, output,
      returned (terminates.mp ends)⟩
  · refine ⟨fun step => ?_, fun handle interpreter event => ?_, fun handle places => ?_,
      fun handle interpreter kind message => ?_, fun handle interpreter message => ?_,
      fun request asked => ?_, fun requests => batch_over settled ends requests⟩
    · exact perform_ended settled step ends
    · have called := call_over settled ends (·.hook handle interpreter event)
        (hook_over settled ends handle interpreter event)
      simp only [perform, called]
    · simp only [perform, lines_over settled ends handle places]
    · have called := call_over settled ends (·.exception handle interpreter kind message)
        (exception_over settled ends handle interpreter kind message)
      simp only [perform, called]
    · have called := call_over settled ends (·.panic handle interpreter message)
        (panic_over settled ends handle interpreter message)
      simp only [perform, called]
    · obtain ⟨_, _, same⟩ := handle_settled settled ends request
      simp only [perform, same]
      split
      · rename_i closes
        exact handle_closes ends (run_quelled steps) asked closes
      · rename_i stays
        obtain ⟨failure, refused⟩ :=
          handle_refuses ((isTerminated_iff settled.coherent).mpr ends) asked stays
        exact ⟨failure, by rw [refused]⟩

/-- However a session ends, a thread that has stopped at a panic returns, and so does one that waits
behind it. -/
theorem stopped_and_blocked_released :
    let session := ({} : Session).run [
      .request { seq := 1, command := "configurationDone" },
      .request { seq := 2, command := "launch", arguments := some (.object []) },
      .panic 1 (.blank [64, 97] 0) "lost",
      .hook 2 (.blank [64, 97] 0) (.line 1)]
    let endings : List Step := [
      .shutdown,
      .request { seq := 3, command := "terminate" },
      .request { seq := 3, command := "disconnect" },
      .request {
        seq := 3
        command := "continue"
        arguments := some (.object [("threadId", .ofNat 1)]) }]
    session.stopped.map (·.call.handle) = some 1 ∧ session.blocked.map (·.handle) = [2] ∧
      session.finished = [] ∧ ∀ step ∈ endings,
        let after := (session.perform step).1
        after.debugger.control.state = .terminated ∧ after.outbox.countP Message.ends = 1 ∧
          after.debugger.registry.threads = [] ∧ after.stopped = none ∧ after.blocked = [] ∧
          after.finished.map (·.1) = [1, 2] := by
  intro session endings
  have stopped : session.stopped.map (·.call.handle) = some 1 := by decide +kernel
  have blocked : session.blocked.map (·.handle) = [2] := by decide +kernel
  have live : session.debugger.control.state ≠ .terminated := by decide +kernel
  have finished : session.finished = [] := by decide +kernel
  have calls : session.calls.map (·.handle) = [1, 2] := by decide +kernel
  have each : endings.all session.endsIn = true := by decide +kernel
  refine ⟨stopped, blocked, finished, fun step member => ?_⟩
  obtain ⟨terminates, releases⟩ := (termination_absorbing _).2.1 live step
  have ends := terminates.mpr (List.all_eq_true.mp each step member)
  obtain ⟨once, threads, unstopped, empty, _, _, _, returned⟩ := releases ends
  rw [finished, calls] at returned
  exact ⟨ends, once, threads, unstopped, empty, returned⟩

end Session
end DebugAdapter
