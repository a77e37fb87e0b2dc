import DebugAdapter.Proofs.Session.StepTarget
import DebugAdapter.Proofs.Thread.History

/-!
The history of a session: the requests that it takes and the calls that go on, each with the session
as it is just before. Whatever else happens in between touches neither breakpoints nor what the
client has chosen, so that a run can be followed from one happening to the next.
-/
namespace DebugAdapter

inductive Happening where
  | request (session : Session) (request : Request)
  | call (session : Session) (call : Call)

namespace Happening

def session : Happening → Session
  | .request here _ | .call here _ => here

def next : Happening → Session
  | .request here asked => (here.handle asked).1
  | .call here going => here.proceed going

end Happening

namespace Session

namespace History

def ofCalls (session : Session) : List Call → List Happening
  | [] => []
  | call :: rest => .call session call :: ofCalls (session.proceed call) rest

/-- The calls that need not wait any longer. -/
def ofSettle (session : Session) : List Happening :=
  if session.isTerminated then []
  else if session.debugger.control.stopper.isSome
      ∨ session.debugger.control.state = .initializing then []
  else
    let woken := session.modifyDebugger fun debugger => session.blocked.foldl wake debugger
    ofCalls { woken with blocked := [] } session.blocked

def ofEnter (session : Session) (call : Call) : List Happening :=
  match session.debugger.control.waitUntilRunnable call.thread with
  | some true => [.call (session.modifyDebugger (wake · call)) call]
  | _ => []

/-- A line that is passed by at once goes on like any other. -/
def ofHook (session : Session) (handle : Nat) (interpreter : Interpreter) :
    HookEvent → List Happening
  | .call | .return_ => []
  | .line line =>
    if session.debugger.control.state = .terminated then []
    else
      let place := session.locate handle interpreter
      ofEnter place.session (place.arrival handle interpreter line)

def ofRaise (session : Session) (handle : Nat) (interpreter : Interpreter)
    (record : ExceptionRecord) : List Happening :=
  let (session, thread) := session.attach handle
  ofEnter session { handle, thread := thread.id, interpreter, errand := .exception record }

def ofException (session : Session) (handle : Nat) (interpreter : Interpreter)
    (kind : ExceptionKind) (message : String) : List Happening :=
  if session.isTerminated || !session.debugger.exceptionFilters.contains kind.filter then []
  else
    ofRaise session handle interpreter {
      kind := kind.filter
      message := session.debugger.mapping.exceptionMessage message
      fatal := false }

def ofPanic (session : Session) (handle : Nat) (interpreter : Interpreter) (message : String) :
    List Happening :=
  if session.isTerminated then []
  else
    ofRaise session handle interpreter {
      kind := "panic"
      message := session.debugger.mapping.exceptionMessage message
      fatal := true }

/-- A call of the interpreter, unless its thread is inside of another one. -/
def ofCall (session : Session) (handle : Nat) (run : Session → Session)
    (first : List Happening) : List Happening :=
  if session.isStoppedAt handle || session.isBlockedAt handle then []
  else first ++ ofSettle (run session)

def ofLines (session : Session) (handle : Nat) : List (Interpreter × Nat) → List Happening
  | [] => []
  | (interpreter, line) :: rest =>
    let here := ofCall session handle (·.hook handle interpreter (.line line))
      (ofHook session handle interpreter (.line line))
    match session.call handle (·.hook handle interpreter (.line line)) with
    | (session, .done) => here ++ ofLines session handle rest
    | _ => here

def ofRequests (session : Session) : List Request → List Happening
  | [] => []
  | request :: rest => .request session request :: ofRequests (session.handle request).1 rest

/-- The evaluation that keeps the interpreter busy is answered beside the other requests. -/
def ofBatch (session : Session) (requests : List Request) : List Happening :=
  match requests with
  | [] => []
  | first :: rest =>
    match session.busyWith? first with
    | some stop =>
      let inspected := session.debugger.inspect stop ⟨first, .evaluate⟩
      let noted := session.note inspected.callbacks
      let answered := (noted.handleAll rest).1.answer first (inspected.outcome.map (·.body))
      ofRequests noted rest ++ ofSettle answered.serve
    | none => ofRequests session requests ++ ofSettle (session.handleAll requests).1.serve

def ofStep (session : Session) : Step → List Happening
  | .request request =>
    .request session request :: ofSettle (session.handle request).1.serve
  | .batch requests => ofBatch session requests
  | .hook handle interpreter event =>
    ofCall session handle (·.hook handle interpreter event)
      (ofHook session handle interpreter event)
  | .lines handle places => ofLines session handle places
  | .exception handle interpreter kind message =>
    ofCall session handle (·.exception handle interpreter kind message)
      (ofException session handle interpreter kind message)
  | .panic handle interpreter message =>
    ofCall session handle (·.panic handle interpreter message)
      (ofPanic session handle interpreter message)
  | .shutdown => ofSettle session.shutdown.1
  | _ => []

end History

def history (session : Session) : List Step → List Happening
  | [] => []
  | step :: rest => History.ofStep session step ++ history (session.perform step).1 rest

/-- What goes on beside the happenings. -/
inductive Still (session : Session) : Session → Prop where
  | act {next : Session} : Act session none next → Still session next
  | answer (request : Request) (outcome : Except Failure Body) :
      Still session (session.answer request outcome)
  | attach (handle : Nat) : Still session (session.attach handle).1
  | waits (registry : Registry) (blocked : List Call) :
      Still session { session with debugger := { session.debugger with registry }, blocked }

/-- How one session comes from another through these happenings. -/
inductive Unfolds (session : Session) : List Happening → Session → Prop where
  | refl : Unfolds session [] session
  | still {history : List Happening} {middle next : Session} :
      Unfolds session history middle → Still middle next → Unfolds session history next
  | request {history : List Happening} {middle : Session} (request : Request) :
      Unfolds session history middle →
      Unfolds session (history ++ [.request middle request]) (middle.handle request).1
  | call {history : List Happening} {middle : Session} (call : Call) :
      Unfolds session history middle →
      middle.debugger.control.state ≠ .initializing →
      middle.debugger.control.state ≠ .terminated →
      Unfolds session (history ++ [.call middle call]) (middle.proceed call)

variable {session middle next : Session} {history later : List Happening} {call : Call}

theorem Unfolds.one (still : Still session next) : Unfolds session [] next :=
  Unfolds.refl.still still

theorem Unfolds.trans (first : Unfolds session history middle) (last : Unfolds middle later next) :
    Unfolds session (history ++ later) next := by
  induction last with
  | refl => simpa using first
  | still _ still ih => exact ih.still still
  | request request _ ih =>
    rw [← List.append_assoc]
    exact ih.request request
  | call call _ begun live ih =>
    rw [← List.append_assoc]
    exact ih.call call begun live

theorem Unfolds.quietly (first : Unfolds session history middle) (last : Unfolds middle [] next) :
    Unfolds session history next := by
  simpa using first.trans last

/-- A history can be cut at each of its happenings. -/
theorem Unfolds.split (unfolds : Unfolds session history next) {before after : List Happening}
    {happening : Happening} (whole : history = before ++ happening :: after) :
    Unfolds session before happening.session ∧ Unfolds happening.next after next := by
  induction unfolds generalizing after with
  | refl => simp at whole
  | still _ still ih =>
    obtain ⟨earlier, later⟩ := ih whole
    exact ⟨earlier, later.still still⟩
  | request request prior ih =>
    rcases append_eq_cut whole with ⟨rfl, rfl, rfl⟩ | ⟨since, same, rfl⟩
    · exact ⟨prior, .refl⟩
    · obtain ⟨earlier, later⟩ := ih same
      exact ⟨earlier, later.request request⟩
  | call call prior begun live ih =>
    rcases append_eq_cut whole with ⟨rfl, rfl, rfl⟩ | ⟨since, same, rfl⟩
    · exact ⟨prior, .refl⟩
    · obtain ⟨earlier, later⟩ := ih same
      exact ⟨earlier, later.call call begun live⟩

/-- A call that goes on does so in a session that has begun and is not over. -/
theorem Unfolds.proceeds (unfolds : Unfolds session history next)
    (member : .call middle call ∈ history) :
    middle.debugger.control.state ≠ .initializing ∧ middle.debugger.control.state ≠ .terminated := by
  induction unfolds with
  | refl => contradiction
  | still _ _ ih => exact ih member
  | request request _ ih =>
    rcases List.mem_append.mp member with earlier | last
    · exact ih earlier
    · simp at last
  | call other _ begun live ih =>
    rcases List.mem_append.mp member with earlier | last
    · exact ih earlier
    · obtain ⟨rfl, rfl⟩ := by simpa using last
      exact ⟨begun, live⟩

theorem Acts.unfolds (acts : Acts session [] next) : Unfolds session [] next :=
  acts.unasked .refl fun _ act unfolds => unfolds.still (.act act)

theorem calls_unfold (calls : List Call)
    (begun : session.debugger.control.state ≠ .initializing)
    (live : session.debugger.control.state ≠ .terminated) :
    Unfolds session (History.ofCalls session calls) (calls.foldl proceed session) := by
  induction calls generalizing session with
  | nil => exact .refl
  | cons call rest ih =>
    have goes : Goes session call (session.proceed call) := proceed_goes begun live
    have first : Unfolds session [.call session call] (session.proceed call) :=
      Unfolds.refl.call call begun live
    exact first.trans (ih (goes.begun begun) (goes.live live))

theorem settle_unfolds (coherent : session.Coherent) (drained : session.debugger.queue = []) :
    Unfolds session (History.ofSettle session) session.settle := by
  by_cases ends : session.debugger.control.state = .terminated
  · have ended := (isTerminated_iff coherent).mpr ends
    simp only [History.ofSettle, ended, if_true]
    exact (settle_over drained coherent ends).1.unfolds
  · have running : ¬session.isTerminated = true := (isTerminated_iff coherent).not.mpr ends
    unfold History.ofSettle settle
    dsimp only
    rw [if_neg running, if_neg running]
    split
    · exact .refl
    · rename_i released
      obtain ⟨_, begun⟩ := not_or.mp released
      obtain ⟨registry, woken⟩ := wakeAll_spec session.blocked session.debugger
      simp only [modifyDebugger, woken]
      exact (Unfolds.one (.waits registry [])).trans (calls_unfold session.blocked begun ends)

theorem enter_unfolds (live : session.debugger.control.state ≠ .terminated) :
    Unfolds session (History.ofEnter session call) (session.enter call) := by
  unfold History.ofEnter enter
  split
  · rename_i free
    simp only [free]
    have begun := (Free.state (show session.Free call from free)).2
    obtain ⟨registry, woken, _⟩ := wake_spec session.debugger call
    simp only [modifyDebugger, woken]
    exact (Unfolds.one (.waits registry session.blocked)).call call begun live
  · rename_i held
    split
    · exact .one (.waits _ _)
    · rename_i ends
      simp [Execution.Control.waitUntilRunnable, live] at ends
    · contradiction

theorem attach_unfolds (session : Session) (handle : Nat) :
    Unfolds session [] (session.attach handle).1 :=
  .one (.attach handle)

theorem findOrAttach_unfolds (session : Session) (handle : Nat) :
    Unfolds session [] (session.findOrAttach handle).1 := by
  unfold findOrAttach
  split
  · exact .refl
  · exact attach_unfolds session handle

theorem resolve_unfolds (session : Session) (interpreter : Interpreter) :
    Unfolds session [] (session.resolve interpreter).1 :=
  .one (.act (.aside (.discover interpreter interpreter.chunk)))

theorem locate_unfolds (session : Session) (handle : Nat) (interpreter : Interpreter) :
    Unfolds session [] (session.locate handle interpreter).session :=
  (findOrAttach_unfolds session handle).quietly (resolve_unfolds _ interpreter)

theorem finish_unfolds (session : Session) (handle : Nat) (value : Option Bool) :
    Unfolds session [] (session.finish handle value) :=
  .one (.act (.aside (.finish handle value)))

theorem hook_unfolds (settled : session.Settled) (rested : session.Rested) (handle : Nat)
    (interpreter : Interpreter) (event : HookEvent) :
    Unfolds session (History.ofHook session handle interpreter event)
      (session.hook handle interpreter event) := by
  cases event with
  | line line =>
    by_cases ends : session.debugger.control.state = .terminated
    · simp only [History.ofHook, ends, if_true]
      rw [hook_over settled ends]
      exact finish_unfolds session handle none
    · simp only [History.ofHook, ends, if_false]
      rw [hook_attends settled.coherent.control rested ends, attendLine_eq]
      have located := locate_unfolds session handle interpreter
      have control := (locate_located session handle interpreter).control
      exact located.trans (enter_unfolds (control ▸ ends))
  | call | return_ =>
    unfold History.ofHook hook
    dsimp only
    split
    · exact finish_unfolds session handle none
    · exact (findOrAttach_unfolds session handle).quietly (finish_unfolds _ handle none)

theorem raise_unfolds (live : session.debugger.control.state ≠ .terminated) (handle : Nat)
    (interpreter : Interpreter) (record : ExceptionRecord) :
    Unfolds session (History.ofRaise session handle interpreter record)
      ((session.attach handle).1.enter {
        handle, thread := (session.attach handle).2.id, interpreter, errand := .exception record }) :=
  (attach_unfolds session handle).trans (@enter_unfolds (session.attach handle).1 _ live)

theorem exception_unfolds (coherent : session.Coherent) (handle : Nat) (interpreter : Interpreter)
    (kind : ExceptionKind) (message : String) :
    Unfolds session (History.ofException session handle interpreter kind message)
      (session.exception handle interpreter kind message) := by
  unfold History.ofException exception
  split
  · exact finish_unfolds session handle (some false)
  · rename_i armed
    refine raise_unfolds (fun ends => armed ?_) handle interpreter _
    simp [(isTerminated_iff coherent).mpr ends]

theorem panic_unfolds (coherent : session.Coherent) (handle : Nat) (interpreter : Interpreter)
    (message : String) :
    Unfolds session (History.ofPanic session handle interpreter message)
      (session.panic handle interpreter message) := by
  unfold History.ofPanic panic
  split
  · exact finish_unfolds session handle none
  · rename_i running
    exact raise_unfolds (fun ends => running ((isTerminated_iff coherent).mpr ends)) handle
      interpreter _

theorem call_unfolds (settled : session.Settled) {handle : Nat} (run : Session → Session)
    {first : List Happening} (unfolds : Unfolds session first (run session))
    (advances : (∀ other ∈ session.calls, other.handle ≠ handle) → Advances session (run session)) :
    Unfolds session (History.ofCall session handle run first) (session.call handle run).1 := by
  unfold History.ofCall call
  split
  · exact .refl
  · rename_i available
    have ran := (advances (idle_of_available available)).settled settled
    exact unfolds.trans (settle_unfolds ran.coherent ran.drained)

theorem hookCall_unfolds (settled : session.Settled) (rested : session.Rested) (handle : Nat)
    (interpreter : Interpreter) (event : HookEvent) :
    Unfolds session (History.ofCall session handle (·.hook handle interpreter event)
        (History.ofHook session handle interpreter event))
      (session.call handle (·.hook handle interpreter event)).1 :=
  call_unfolds settled (·.hook handle interpreter event)
    (hook_unfolds settled rested handle interpreter event) fun idle =>
      hook_advances settled.coherent idle interpreter event

theorem lines_unfold (settled : session.Settled) (rested : session.Rested) (handle : Nat)
    (places : List (Interpreter × Nat)) :
    Unfolds session (History.ofLines session handle places) (session.lines handle places).1 := by
  induction places generalizing session with
  | nil => exact .refl
  | cons place rest ih =>
    obtain ⟨interpreter, line⟩ := place
    have here := hookCall_unfolds settled rested handle interpreter (.line line)
    have after : Relation.ReflTransGen (LineCall handle) session
        (session.call handle (·.hook handle interpreter (.line line))).1 :=
      .single ⟨interpreter, line, rfl⟩
    have settledAfter := (lineCalls_advances after settled).settled settled
    have restedAfter := lineCalls_rested after settled rested
    unfold History.ofLines lines
    dsimp only
    generalize session.call handle (·.hook handle interpreter (.line line)) = result
      at here settledAfter restedAfter ⊢
    obtain ⟨reached, state⟩ := result
    cases state with
    | done => exact here.trans (ih settledAfter restedAfter)
    | stopped | blocked | busy => exact here

/-- A request that lets no call go on is all that happens. -/
theorem history_request {request : Request}
    (quiet : (session.handle request).1.serve.blocked = []) (rest : List Step) :
    session.history (.request request :: rest) =
      .request session request :: (session.perform (.request request)).1.history rest := by
  have still : History.ofSettle (session.handle request).1.serve = [] := by
    unfold History.ofSettle
    rw [quiet]
    split
    · rfl
    · split <;> rfl
  simp only [history, History.ofStep, still, List.singleton_append]

theorem handleAll_unfolds (session : Session) (requests : List Request) :
    Unfolds session (History.ofRequests session requests) (session.handleAll requests).1 := by
  induction requests generalizing session with
  | nil => exact .refl
  | cons request rest ih =>
    have first : Unfolds session [.request session request] (session.handle request).1 :=
      Unfolds.refl.request request
    exact first.trans (ih (session.handle request).1)

theorem served_unfolds {taken : List Request} (acts : Acts session taken middle)
    (unfolds : Unfolds session history middle) (coherent : session.Coherent) :
    Unfolds session (history ++ History.ofSettle middle.serve) middle.serve.settle := by
  obtain ⟨served, drained⟩ := serve_acts (acts.coherent coherent)
  have answered := acts.quietly served
  exact (unfolds.quietly served.unfolds).trans
    (settle_unfolds (answered.coherent coherent) drained)

theorem batch_unfolds (settled : session.Settled) (requests : List Request) :
    Unfolds session (History.ofBatch session requests) (session.batch requests).1 := by
  have coherent := settled.coherent
  cases requests with
  | nil => exact .refl
  | cons first rest =>
    simp only [History.ofBatch, batch]
    cases busy : session.busyWith? first with
    | some stop =>
      obtain ⟨asked, named⟩ := busyWith_spec busy
      let inspected := session.debugger.inspect stop ⟨first, .evaluate⟩
      have noting : Acts session [] (session.note inspected.callbacks) :=
        .still (.aside (.note inspected.callbacks))
      have handled := handleAll_acts (noting.coherent coherent) rest
      have acts := (noting.trans handled).tail
        (.evaluate first (inspected.outcome.map (·.body)) asked named)
      have unfolds := (noting.unfolds.trans (handleAll_unfolds _ rest)).still
        (.answer first (inspected.outcome.map (·.body)))
      exact served_unfolds acts unfolds coherent
    | none =>
      exact served_unfolds (handleAll_acts coherent (first :: rest))
        (handleAll_unfolds session (first :: rest)) coherent

theorem origin_unfolds (session : Session) (place : Option (Interpreter × Nat)) :
    Unfolds session [] (session.origin place).1 := by
  cases place with
  | none => exact .refl
  | some place => exact resolve_unfolds session place.1

theorem capture_unfolds (session : Session) (category : Output.Category) (bytes : List UInt8)
    (attribution : Option Output.Attribution) :
    Unfolds session [] (session.capture category bytes attribution) :=
  .one (.act (.capture category bytes attribution))

theorem perform_unfolds (settled : session.Settled) (rested : session.Rested) (step : Step) :
    Unfolds session (History.ofStep session step) (session.perform step).1 := by
  have coherent := settled.coherent
  cases step with
  | request request =>
    exact served_unfolds (handle_acts coherent request) (Unfolds.refl.request request) coherent
  | batch requests => exact batch_unfolds settled requests
  | hook handle interpreter event =>
    exact hookCall_unfolds settled rested handle interpreter event
  | lines handle places => exact lines_unfold settled rested handle places
  | exception handle interpreter kind message =>
    exact call_unfolds settled (·.exception handle interpreter kind message)
      (exception_unfolds coherent handle interpreter kind message) fun idle =>
        exception_advances coherent idle interpreter kind message
  | panic handle interpreter message =>
    exact call_unfolds settled (·.panic handle interpreter message)
      (panic_unfolds coherent handle interpreter message) fun idle =>
        panic_advances coherent idle interpreter message
  | attach handle => exact attach_unfolds session handle
  | detach handle announce => exact .one (.act (.detach handle announce))
  | print bytes place =>
    have placed := origin_unfolds session place
    simp only [perform, print, History.ofStep]
    split
    · exact placed.quietly (capture_unfolds _ _ _ _)
    · exact placed
  | capture category bytes place =>
    exact (origin_unfolds session place).quietly (capture_unfolds _ _ _ _)
  | native stream bytes =>
    simp only [perform, native, History.ofStep]
    split
    · exact capture_unfolds _ _ _ _
    · exact .refl
  | updateConfig update => exact .one (.act (.reconfigure _ (.inl ⟨update, rfl⟩)))
  | loadDefaults path content => exact .one (.act (.reconfigure _ (.inr ⟨path, content, rfl⟩)))
  | config => exact .refl
  | shutdown =>
    have ended : Acts session [] session.shutdown.1 := .still .shutdown
    exact ended.unfolds.trans
      (settle_unfolds (ended.coherent coherent) (ended.drained settled.drained))

theorem unfolds_of_rested (settled : session.Settled) (rested : session.Rested)
    (steps : List Step) : Unfolds session (session.history steps) (session.run steps) := by
  induction steps generalizing session with
  | nil => exact .refl
  | cons step rest ih =>
    exact (perform_unfolds settled rested step).trans
      (ih (perform_settled settled step) (perform_rested settled rested step))

/-- Every run unfolds through its history. -/
theorem run_unfolds (steps : List Step) :
    Unfolds {} (({} : Session).history steps) (({} : Session).run steps) :=
  unfolds_of_rested settled_new rested_new steps

/-- Beside the happenings, breakpoints stay, and so does all that the client has chosen. -/
theorem Still.debugger (still : Still session next) :
    (∃ control registry sources output redirected queue, next.debugger =
      { session.debugger with control, registry, sources, output, redirected, queue }) ∨
      ∃ config, next.debugger = (session.debugger.reconfigure config).1 := by
  cases still with
  | answer | waits => exact .inl ⟨_, _, _, _, _, _, rfl⟩
  | attach handle => exact .inl ⟨_, _, _, _, _, _, rfl⟩
  | act act =>
    cases act with
    | aside aside =>
      cases aside with
      | note | finish => exact .inl ⟨_, _, _, _, _, _, rfl⟩
      | discover interpreter chunk =>
        obtain ⟨sources, callbacks, news, _, same⟩ := discover_spec session interpreter chunk
        rw [same]
        exact .inl ⟨_, _, _, _, _, _, rfl⟩
    | decline | reply | resume | release | dismiss => exact .inl ⟨_, _, _, _, _, _, rfl⟩
    | detach handle announce =>
      left
      unfold detach
      cases detached : session.debugger.detach handle announce with
      | none => exact ⟨_, _, _, _, _, _, rfl⟩
      | some result =>
        obtain ⟨⟨registry, thread, _, same⟩, _⟩ := Debugger.detach_spec detached
        dsimp only [emit, send]
        rw [same]
        exact ⟨_, _, _, _, _, _, rfl⟩
    | capture category bytes attribution =>
      obtain ⟨output, news, _, same⟩ := capture_spec session category bytes attribution
      rw [same]
      exact .inl ⟨_, _, _, _, _, _, rfl⟩
    | reconfigure change =>
      cases change with
      | error => exact .inl ⟨_, _, _, _, _, _, rfl⟩
      | ok config => exact .inr ⟨config, rfl⟩
    | shutdown =>
      left
      obtain ⟨output, events, _, ⟨control, _, torn⟩ | ⟨_, torn⟩⟩ :=
        Debugger.teardown_spec session.debugger
      all_goals
        simp only [shutdown, emit, send, torn, Debugger.bare]
        exact ⟨_, _, _, _, _, _, rfl⟩

/-- Whether a request makes a command of the client succeed. -/
def succeeds (session : Session) (command : ControlCommand) (request : Request) : Bool :=
  request.kind = .request && Command.ofName? request.command = some (.control command)
    && (!session.isTerminated || (Command.control command).endsSession)
    && (session.debugger.carryOut command request).isOk

/-- A request makes one command succeed at most. -/
theorem succeeds_other {request : Request} {command other : ControlCommand}
    (succeeded : session.succeeds command request = true) (apart : command ≠ other) :
    session.succeeds other request = false := by
  rw [← Bool.not_eq_true]
  intro also
  simp only [succeeds, Bool.and_eq_true, decide_eq_true_eq] at succeeded also
  have named := succeeded.1.1.2.symm.trans also.1.1.2
  exact apart (Command.control.inj (Option.some.inj named))

/-- A request that succeeds is carried out, and any other one leaves all that was set as it is. -/
theorem handle_spec (session : Session) (request : Request) :
    (∃ command change, session.succeeds command request = true ∧
      session.debugger.carryOut command request = .ok change ∧
      (session.handle request).1.debugger = change.debugger.releaseIfReady) ∨
    ((∀ command, session.succeeds command request = false) ∧
      ∃ control queue, (session.handle request).1.debugger =
        { session.debugger with control, queue }) := by
  cases session.handling request with
  | other kind taken =>
    exact .inr ⟨fun command => by simp [succeeds, kind], _, _, by rw [taken]⟩
  | unknown _ unnamed taken =>
    exact .inr ⟨fun command => by simp [succeeds, unnamed], _, _, by rw [taken]; rfl⟩
  | late command _ named ends lasts taken =>
    refine .inr ⟨fun other => ?_, _, _, by rw [taken]; rfl⟩
    by_cases same : command = .control other
    · subst same
      simp [succeeds, ends, lasts]
    · simp [succeeds, named, same]
  | control command asked named permitted taken =>
    rw [taken]
    cases carried : session.debugger.carryOut command request with
    | ok change =>
      have succeeded : session.succeeds command request = true := by
        simp [succeeds, asked, named, permitted.symm, carried, Except.isOk, Except.toBool]
      exact .inl ⟨command, change, succeeded, carried, rfl⟩
    | error failure =>
      obtain ⟨control, released, _⟩ := Debugger.releaseIfReady_spec session.debugger
      refine .inr ⟨fun other => ?_, control, session.debugger.queue, released⟩
      by_cases same : command = other
      · subst same
        simp [succeeds, carried, Except.isOk, Except.toBool]
      · simp [succeeds, named, same]
  | deferred command _ named _ _ taken | unserved command _ named _ _ taken =>
    exact .inr ⟨fun other => by simp [succeeds, named], _, _, by rw [taken]; rfl⟩

end Session
end DebugAdapter
