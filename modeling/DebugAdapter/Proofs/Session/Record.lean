import DebugAdapter.Session.Step

/-! What was sent, asked and returned is a record: it is only added to, and nothing that a session
does depends on it. -/
namespace DebugAdapter.Session

/-- The session with the record of an earlier one before its own. -/
def following (session earlier : Session) : Session :=
  { session with
    outbox := earlier.outbox ++ session.outbox
    callbacks := earlier.callbacks ++ session.callbacks
    finished := earlier.finished ++ session.finished }

/-- The session with an empty record. -/
def unrecorded (session : Session) : Session :=
  { session with outbox := [], callbacks := [], finished := [] }

variable {session earlier : Session}

@[simp] theorem following_debugger : (session.following earlier).debugger = session.debugger := rfl
@[simp] theorem following_stopped : (session.following earlier).stopped = session.stopped := rfl
@[simp] theorem following_blocked : (session.following earlier).blocked = session.blocked := rfl
@[simp] theorem following_isTerminated :
    (session.following earlier).isTerminated = session.isTerminated := rfl

theorem unrecorded_following (session : Session) : session.unrecorded.following session = session := by
  simp only [following, unrecorded, List.append_nil]

@[simp] theorem send_following (messages : List Message) :
    (session.following earlier).send messages = (session.send messages).following earlier := by
  simp only [send, following, List.append_assoc]

@[simp] theorem emit_following (events : List Event) :
    (session.following earlier).emit events = (session.emit events).following earlier :=
  send_following _

@[simp] theorem note_following (callbacks : List Callback) :
    (session.following earlier).note callbacks = (session.note callbacks).following earlier := by
  simp only [note, following, List.append_assoc]

@[simp] theorem finish_following (handle : Nat) (value : Option Bool) :
    (session.following earlier).finish handle value =
      (session.finish handle value).following earlier := by
  simp only [finish, following, List.append_assoc]

@[simp] theorem answer_following (request : Request) (outcome : Except Failure Body) :
    (session.following earlier).answer request outcome =
      (session.answer request outcome).following earlier :=
  send_following _

@[simp] theorem modifyDebugger_following (change : Debugger → Debugger) :
    (session.following earlier).modifyDebugger change =
      (session.modifyDebugger change).following earlier := rfl

theorem withDebugger_following (debugger : Debugger) :
    { session.following earlier with debugger } =
      { session with debugger }.following earlier := rfl

theorem conclude_following (request : Request) (outcome : Except Failure Change) :
    (session.following earlier).conclude request outcome =
      ((session.conclude request outcome).1.following earlier,
        (session.conclude request outcome).2) := by
  cases outcome with
  | error failure => simp only [conclude, answer_following, modifyDebugger_following]
  | ok change =>
    simp only [conclude, withDebugger_following, send_following, answer_following, emit_following,
      modifyDebugger_following]

theorem handle_following (request : Request) :
    (session.following earlier).handle request =
      ((session.handle request).1.following earlier, (session.handle request).2) := by
  simp only [handle, following_debugger, following_isTerminated, conclude_following,
    answer_following, defer, modifyDebugger_following]
  repeat' split
  all_goals rfl

theorem handleAll_following (requests : List Request) :
    (session.following earlier).handleAll requests =
      ((session.handleAll requests).1.following earlier, (session.handleAll requests).2) := by
  induction requests generalizing session with
  | nil => rfl
  | cons request rest ih => simp only [handleAll, handle_following, ih]

theorem shutdown_following :
    (session.following earlier).shutdown =
      (session.shutdown.1.following earlier, session.shutdown.2) := by
  simp only [shutdown, following_debugger, withDebugger_following, send_following, emit_following]
  rfl

@[simp] theorem leave_following (call : Call) :
    (session.following earlier).leave call = (session.leave call).following earlier := by
  unfold leave
  split
  · simp only [finish_following]
  · split <;> simp only [shutdown_following, finish_following]

@[simp] theorem release_following (stop : Stop) :
    (session.following earlier).release stop = (session.release stop).following earlier := by
  have gone : ({ session.following earlier with stopped := none }.modifyDebugger
      (runThreads · stop.call.thread)) = ({ session with stopped := none }.modifyDebugger
        (runThreads · stop.call.thread)).following earlier := rfl
  simp only [release, gone]
  split
  · simp only [finish_following]
  · split <;> simp only [shutdown_following, finish_following]

@[simp] theorem resume_following (stop : Stop) (how : Resume) :
    (session.following earlier).resume stop how = (session.resume stop how).following earlier := by
  simp only [resume, following_debugger, withDebugger_following, send_following, release_following]
  split <;> rfl

@[simp] theorem reply_following (stop : Stop) (request : Request) (outcome : Except Failure Reply) :
    (session.following earlier).reply stop request outcome =
      (session.reply stop request outcome).following earlier := by
  cases outcome with
  | error failure => exact answer_following request _
  | ok reply =>
    have moved : ({ session.following earlier with
        debugger := reply.debugger
        stopped := some { stop with framesFetched := reply.framesFetched } } : Session) =
        { session with
          debugger := reply.debugger
          stopped := some { stop with framesFetched := reply.framesFetched } }.following earlier := rfl
    simp only [Session.reply, moved, emit_following, answer_following, resume_following]
    split <;> rfl

@[simp] theorem serveNext_following :
    (session.following earlier).serveNext = session.serveNext.following earlier := by
  simp only [serveNext, following_stopped, following_debugger, modifyDebugger_following,
    note_following, reply_following]
  split <;> rfl

theorem foldl_following {run : Session → α → Session}
    (unaware : ∀ session element, run (session.following earlier) element =
      (run session element).following earlier) (elements : List α) :
    elements.foldl run (session.following earlier) =
      (elements.foldl run session).following earlier := by
  induction elements generalizing session with
  | nil => rfl
  | cons element rest ih => rw [List.foldl_cons, unaware, ih, List.foldl_cons]

@[simp] theorem serve_following :
    (session.following earlier).serve = session.serve.following earlier :=
  foldl_following (fun _ _ => serveNext_following) session.debugger.queue

@[simp] theorem stop_following (call : Call) (reason : Execution.StopReason)
    (exception : Option ExceptionRecord) :
    (session.following earlier).stop call reason exception =
      (session.stop call reason exception).following earlier := by
  simp only [stop, emit, send, following, List.append_assoc]

@[simp] theorem block_following (call : Call) :
    (session.following earlier).block call = (session.block call).following earlier := rfl

theorem checkCondition_following (interpreter : Interpreter) (condition : Option String) :
    (session.following earlier).checkCondition interpreter condition =
      ((session.checkCondition interpreter condition).1.following earlier,
        (session.checkCondition interpreter condition).2) := by
  cases condition with
  | none => rfl
  | some expression =>
    simp only [checkCondition, note_following, emit_following]
    split <;> rfl

@[simp] theorem log_following (interpreter : Interpreter) (source : Source) (line : Nat)
    (fragments : List Breakpoint.Fragment) :
    (session.following earlier).log interpreter source line fragments =
      (session.log interpreter source line fragments).following earlier := by
  simp only [log, note_following, emit_following]
  rfl

@[simp] theorem beginStop_following (call : Call) (reason : Execution.StopReason)
    (exception : Option ExceptionRecord) :
    (session.following earlier).beginStop call reason exception =
      (session.beginStop call reason exception).following earlier := by
  simp only [beginStop, following_debugger, block_following, leave_following,
    modifyDebugger_following, stop_following]
  split <;> rfl

@[simp] theorem visit_following (call : Call) (line : Nat) (source : Source.Resolved) :
    (session.following earlier).visit call line source =
      (session.visit call line source).following earlier := by
  simp only [visit, following_debugger, leave_following, checkCondition_following,
    modifyDebugger_following, log_following, beginStop_following]
  repeat' split
  all_goals rfl

@[simp] theorem proceed_following (call : Call) :
    (session.following earlier).proceed call = (session.proceed call).following earlier := by
  simp only [proceed, following_debugger, beginStop_following, block_following, leave_following,
    modifyDebugger_following, stop_following, visit_following]
  repeat' split
  all_goals rfl

@[simp] theorem enter_following (call : Call) :
    (session.following earlier).enter call = (session.enter call).following earlier := by
  simp only [enter, following_debugger, block_following, leave_following,
    modifyDebugger_following, proceed_following]
  split <;> rfl

@[simp] theorem settle_following :
    (session.following earlier).settle = session.settle.following earlier := by
  have returned (session : Session) (calls : List Call) :
      calls.foldl leave (session.following earlier) =
        (calls.foldl leave session).following earlier :=
    foldl_following (fun _ call => leave_following call) calls
  have gone (session : Session) (calls : List Call) :
      calls.foldl proceed (session.following earlier) =
        (calls.foldl proceed session).following earlier :=
    foldl_following (fun _ call => proceed_following call) calls
  by_cases ends : session.isTerminated = true
  · cases held : session.stopped with
    | none =>
      simp only [settle, following_isTerminated, following_stopped, following_blocked, ends, held,
        if_true]
      exact returned { session with stopped := none, blocked := [] } session.blocked
    | some stop =>
      simp only [settle, following_isTerminated, following_stopped, following_blocked, ends, held,
        if_true, release_following]
      exact returned { session.release stop with blocked := [] } session.blocked
  · by_cases waits : session.debugger.control.stopper.isSome ∨
        session.debugger.control.state = .initializing
    · simp only [settle, following_isTerminated, following_debugger, ends, waits, if_true,
        Bool.false_eq_true, if_false]
    · simp only [settle, following_isTerminated, following_debugger, following_blocked, ends, waits,
        Bool.false_eq_true, if_false]
      exact gone { session.modifyDebugger fun debugger =>
        session.blocked.foldl wake debugger with blocked := [] } session.blocked

theorem attach_following (handle : Nat) :
    (session.following earlier).attach handle =
      ((session.attach handle).1.following earlier, (session.attach handle).2) := by
  simp only [attach, following_debugger, withDebugger_following, emit_following]

theorem findOrAttach_following (handle : Nat) :
    (session.following earlier).findOrAttach handle =
      ((session.findOrAttach handle).1.following earlier, (session.findOrAttach handle).2) := by
  simp only [findOrAttach, following_debugger, attach_following]
  split <;> rfl

theorem resolve_following (interpreter : Interpreter) :
    (session.following earlier).resolve interpreter =
      ((session.resolve interpreter).1.following earlier, (session.resolve interpreter).2) := by
  simp only [resolve, following_debugger, withDebugger_following, note_following, emit_following]

@[simp] theorem visitLine_following (handle thread : Nat) (interpreter : Interpreter) (line : Nat) :
    (session.following earlier).visitLine handle thread interpreter line =
      (session.visitLine handle thread interpreter line).following earlier := by
  simp only [visitLine, resolve_following, enter_following]

@[simp] theorem hook_following (handle : Nat) (interpreter : Interpreter) (event : HookEvent) :
    (session.following earlier).hook handle interpreter event =
      (session.hook handle interpreter event).following earlier := by
  simp only [hook, following_debugger, findOrAttach_following, finish_following,
    visitLine_following]
  repeat' split
  all_goals rfl

@[simp] theorem exception_following (handle : Nat) (interpreter : Interpreter)
    (kind : ExceptionKind) (message : String) :
    (session.following earlier).exception handle interpreter kind message =
      (session.exception handle interpreter kind message).following earlier := by
  simp only [exception, following_debugger, following_isTerminated, finish_following,
    attach_following, enter_following]
  split <;> rfl

@[simp] theorem panic_following (handle : Nat) (interpreter : Interpreter) (message : String) :
    (session.following earlier).panic handle interpreter message =
      (session.panic handle interpreter message).following earlier := by
  simp only [panic, following_isTerminated, finish_following, attach_following, enter_following]
  split <;> rfl

theorem call_following {run : Session → Session}
    (unaware : run (session.following earlier) = (run session).following earlier) (handle : Nat) :
    (session.following earlier).call handle run =
      ((session.call handle run).1.following earlier, (session.call handle run).2) := by
  have busy : (session.following earlier).isStoppedAt handle = session.isStoppedAt handle ∧
      (session.following earlier).isBlockedAt handle = session.isBlockedAt handle := ⟨rfl, rfl⟩
  have state (session : Session) :
      (session.following earlier).callState handle = session.callState handle := rfl
  simp only [call, busy, unaware, settle_following, state]
  split <;> rfl

theorem lines_following (handle : Nat) (places : List (Interpreter × Nat)) :
    (session.following earlier).lines handle places =
      ((session.lines handle places).1.following earlier, (session.lines handle places).2) := by
  induction places generalizing session with
  | nil => rfl
  | cons place rest ih =>
    obtain ⟨interpreter, line⟩ := place
    have called := @call_following session earlier (·.hook handle interpreter (.line line))
      (hook_following handle interpreter (.line line)) handle
    simp only [lines, called]
    generalize session.call handle (·.hook handle interpreter (.line line)) = result
    obtain ⟨later, state⟩ := result
    cases state with
    | done => simp only [ih]
    | stopped | blocked | busy => rfl

theorem request_following (request : Request) :
    (session.following earlier).request request =
      ((session.request request).1.following earlier, (session.request request).2) := by
  simp only [Session.request, handle_following, serve_following, settle_following]

theorem batch_following (requests : List Request) :
    (session.following earlier).batch requests =
      ((session.batch requests).1.following earlier, (session.batch requests).2) := by
  cases requests with
  | nil => rfl
  | cons first rest =>
    have busy : (session.following earlier).busyWith? first = session.busyWith? first := rfl
    simp only [batch, busy, following_debugger, note_following, handleAll_following,
      answer_following, serve_following, settle_following]
    split <;> rfl

theorem detach_following (handle : Nat) (announce : Bool) :
    (session.following earlier).detach handle announce =
      ((session.detach handle announce).1.following earlier,
        (session.detach handle announce).2) := by
  simp only [detach, following_debugger, withDebugger_following, emit_following]
  split <;> rfl

theorem origin_following (place : Option (Interpreter × Nat)) :
    (session.following earlier).origin place =
      ((session.origin place).1.following earlier, (session.origin place).2) := by
  cases place with
  | none => rfl
  | some place => simp only [origin, resolve_following]

theorem capture_following (category : Output.Category) (bytes : List UInt8)
    (attribution : Option Output.Attribution) :
    (session.following earlier).capture category bytes attribution =
      (session.capture category bytes attribution).following earlier := by
  simp only [capture, following_debugger, withDebugger_following, emit_following]

theorem configure_following (config : Except Config.Error Config.Store) :
    (session.following earlier).configure config =
      ((session.configure config).1.following earlier, (session.configure config).2) := by
  cases config with
  | error error => rfl
  | ok config =>
    simp only [configure, following_debugger, withDebugger_following, emit_following]

/-- What a step does, and what it returns, does not depend on the record. -/
theorem perform_following (step : Step) :
    (session.following earlier).perform step =
      ((session.perform step).1.following earlier, (session.perform step).2) := by
  cases step with
  | request request => simp only [perform, request_following]
  | batch requests => simp only [perform, batch_following]
  | hook handle interpreter event =>
    simp only [perform, @call_following session earlier (·.hook handle interpreter event)
      (hook_following handle interpreter event)]
  | lines handle places => simp only [perform, lines_following]
  | exception handle interpreter kind message =>
    simp only [perform, @call_following session earlier (·.exception handle interpreter kind message)
      (exception_following handle interpreter kind message)]
  | panic handle interpreter message =>
    simp only [perform, @call_following session earlier (·.panic handle interpreter message)
      (panic_following handle interpreter message)]
  | attach handle => simp only [perform, attach_following]
  | detach handle announce => simp only [perform, detach_following]
  | print bytes place =>
    simp only [perform, origin_following, print, following_debugger, capture_following]
    split <;> rfl
  | capture category bytes place => simp only [perform, origin_following, capture_following]
  | native stream bytes =>
    simp only [perform, native, following_debugger, capture_following]
    split <;> rfl
  | updateConfig update =>
    simp only [perform, updateConfig, following_debugger, configure_following]
  | loadDefaults path content =>
    simp only [perform, loadDefaults, following_debugger, configure_following]
  | config => rfl
  | shutdown => simp only [perform, shutdown_following, settle_following]

/-- Sessions that differ in their records go on in the same way. -/
theorem run_following (steps : List Step) :
    (session.following earlier).run steps = (session.run steps).following earlier :=
  foldl_following (fun session step => by rw [perform_following]) steps

end DebugAdapter.Session
