import DebugAdapter.Proofs.Session.ExceptionFilters
import DebugAdapter.Proofs.Session.Termination

/-! Which exceptions stop their threads. One that the filters in force let through stops its thread
as soon as that may stop, and a panic does so whatever they are. -/
namespace DebugAdapter.Session

variable {session next : Session} {call : Call} {record : ExceptionRecord}

def report (session : Session) (kind message : String) (fatal : Bool) : ExceptionRecord :=
  { kind, message := session.debugger.mapping.exceptionMessage message, fatal }

def raisedCall (session : Session) (handle : Nat) (interpreter : Interpreter)
    (record : ExceptionRecord) : Call :=
  { handle, thread := (session.attach handle).2.id, interpreter, errand := .exception record }

def Released (session : Session) : Prop :=
  session.debugger.control.state ≠ .initializing ∧ session.stopped = none

def HaltedAt (session : Session) (call : Call) : Prop :=
  session.stopped.map (·.call) = some call ∧
    session.debugger.control.state = .stopped .exception

theorem enter_raised (free : session.Free call) (errand : call.errand = .exception record) :
    session.enter call = (session.modifyDebugger fun debugger => { debugger with
      control := debugger.control.enterStop call.thread .exception }).stop call .exception
        (some record) := by
  have runs : session.debugger.control.waitUntilRunnable call.thread = some true := free
  obtain ⟨live, unblocked⟩ := Execution.Control.waitUntilRunnable_eq_true.mp free
  have entered : session.enter call = session.beginStop call .exception (some record) := by
    simp only [enter, runs, wake, errand, proceed, modifyDebugger]
  rw [entered]
  exact beginStop_free live (Bool.or_eq_false_iff.mp unblocked).2 .exception (some record)

theorem Rested.unreleased (rested : session.Rested) (settled : session.Settled)
    (waits : call ∈ session.blocked) : ¬session.Released := by
  rintro ⟨begun, unstopped⟩
  have live : session.debugger.control.state ≠ .terminated := fun ends => by
    simp [(settled.ends ends).2] at waits
  have free : session.debugger.control.stopper = none := by
    rw [settled.coherent.holder live, unstopped, Option.map_none]
  rcases rested.held (List.ne_nil_of_mem waits) with held | initializing
  · simp [free] at held
  · exact begun initializing

theorem Act.waits {request : Option Request} (act : Act session request next)
    (waits : call ∈ session.blocked) :
    call ∈ next.blocked ∨ session.debugger.control.state = .terminated := by
  cases act with
  | aside aside => cases aside <;> exact .inl waits
  | dismiss _ _ ends => exact .inr ends
  | detach handle announce =>
    left
    unfold Session.detach
    split <;> exact waits
  | reconfigure change =>
    left
    unfold Session.configure
    split <;> exact waits
  | _ => exact .inl waits

theorem Acts.waits {taken : List Request} (acts : Acts session taken next)
    (coherent : session.Coherent) (waits : call ∈ session.blocked) :
    call ∈ next.blocked ∨ next.debugger.control.state = .terminated := by
  induction acts with
  | refl => exact .inl waits
  | @tail middle next _ _ acts act ih =>
    have ended (ends : middle.debugger.control.state = .terminated) :
        next.debugger.control.state = .terminated :=
      ((Acts.refl middle).tail act).ended (acts.coherent coherent) ends
    rcases ih with inside | ends
    · exact (act.waits inside).imp_right ended
    · exact .inr (ended ends)

/-- A thread that waits with an exception goes on waiting, or it stops. -/
theorem Advance.halts (advance : Advance session next) (coherent : session.Coherent)
    (errand : call.errand = .exception record)
    (held : call ∈ session.blocked ∨ session.HaltedAt call) :
    call ∈ next.blocked ∨ next.HaltedAt call := by
  cases advance with
  | aside aside =>
    cases aside with
    | note | finish => exact held
    | discover interpreter chunk =>
      obtain ⟨sources, callbacks, news, _, same⟩ := discover_spec session interpreter chunk
      rw [same]
      exact held
  | attach | suspend | say | hit => exact held
  | arrive other => exact held.imp_left (List.mem_append_left _)
  | wake other =>
    obtain ⟨registry, same, _⟩ := wake_spec session.debugger other
    simp only [modifyDebugger, same]
    exact held
  | leave other before after waits _ line =>
    refine held.imp_left fun inside => ?_
    obtain ⟨line, source, own⟩ := line
    have apart : call ≠ other := by
      rintro rfl
      simp [errand] at own
    rw [waits] at inside
    simpa [apart] using inside
  | stop other before after reason exception control waits free enters purpose =>
    obtain ⟨registry, output, news, _, _, _, same⟩ := stop_spec { session with
      debugger := { session.debugger with control }
      blocked := before ++ after } other reason exception
    have alone := (coherent.alone (by simp [waits]) free).1
    have inside : call ∈ session.blocked := held.resolve_right fun halted => by
      simpa [alone] using halted.1
    rw [same]
    by_cases own : call = other
    · subst own
      obtain ⟨rfl, -⟩ : reason = .exception ∧ exception = some record := by
        simpa only [Call.StopsFor, errand] using purpose
      exact .inr ⟨rfl, enters.state⟩
    · left
      rw [waits] at inside
      simpa [own] using inside

theorem Advances.halts (advances : Advances session next) (coherent : session.Coherent)
    (errand : call.errand = .exception record)
    (held : call ∈ session.blocked ∨ session.HaltedAt call) :
    call ∈ next.blocked ∨ next.HaltedAt call := by
  induction advances with
  | refl => exact held
  | tail advances last ih => exact last.halts (Advances.coherent advances coherent) errand ih

theorem perform_halts (settled : session.Settled) (step : Step)
    (errand : call.errand = .exception record) (waits : call ∈ session.blocked) :
    let after := (session.perform step).1
    call ∈ after.blocked ∨ after.HaltedAt call ∨
      after.debugger.control.state = .terminated := by
  obtain ⟨_, middle, acts, middleSettled, advances, _, alone⟩ := perform_moves settled step
  have live : session.debugger.control.state ≠ .terminated := fun ends => by
    simp [(settled.ends ends).2] at waits
  rcases acts.waits settled.coherent waits with inside | ends
  · exact (advances.halts middleSettled.coherent errand (.inl inside)).imp_right .inl
  · rw [alone live ends]
    exact .inr (.inr ends)

/-- However a session goes on, a thread with an exception waits as long as it may not stop, unless it
has stopped in the meantime or the session was over. -/
theorem run_halts (settled : session.Settled) (rested : session.Rested)
    (errand : call.errand = .exception record) (more : List Step) (waits : call ∈ session.blocked) :
    (call ∈ (session.run more).blocked ∧ ¬(session.run more).Released) ∨
      ∃ earlier rest, more = earlier ++ rest ∧ ((session.run earlier).HaltedAt call ∨
        (session.run earlier).debugger.control.state = .terminated) := by
  induction more generalizing session with
  | nil => exact .inl ⟨waits, rested.unreleased settled waits⟩
  | cons step more ih =>
    rcases perform_halts settled step errand waits with inside | stops
    · rcases ih (perform_settled settled step) (perform_rested settled rested step) inside with
        still | ⟨earlier, rest, rfl, stops⟩
      · exact .inl still
      · exact .inr ⟨step :: earlier, rest, rfl, stops⟩
    · exact .inr ⟨[step], more, rfl, stops⟩

/-- A thread that raises an exception stops at once if the program runs with no thread stopped.
Otherwise it waits, and then it stops as soon as that is so, unless the session is over before. -/
structure Raises (session : Session) (call : Call) (record : ExceptionRecord)
    (result : Session × StepResult) : Prop where
  stops : session.Released → result.2 = .call .stopped ∧ result.1.HaltedAt call ∧
    ∃ news, News news ∧ result.1.outbox =
      session.outbox ++ news ++ [.event (.stopped call.thread .exception (some record))]
  waits : ¬session.Released → result.2 = .call .blocked ∧ call ∈ result.1.blocked ∧
    ∀ more, let later := result.1.run more
      (call ∈ later.blocked ∧ ¬later.Released) ∨
        ∃ earlier rest, more = earlier ++ rest ∧ ((result.1.run earlier).HaltedAt call ∨
          (result.1.run earlier).debugger.control.state = .terminated)

theorem enter_halts (entering : (session.enter call).Settled) (free : session.Free call)
    (errand : call.errand = .exception record) :
    (session.enter call).settle = session.enter call ∧ (session.enter call).HaltedAt call ∧
      (session.enter call).callState call.handle = .stopped ∧
      ∃ news, News news ∧ (session.enter call).outbox =
        session.outbox ++ news ++ [.event (.stopped call.thread .exception (some record))] := by
  obtain ⟨registry, output, news, incidental, _, _, same⟩ :=
    stop_spec (session.modifyDebugger fun debugger => { debugger with
      control := debugger.control.enterStop call.thread .exception }) call .exception (some record)
  rw [enter_raised free errand, same] at entering ⊢
  refine ⟨settle_held ?_ (.inl rfl), ⟨rfl, rfl⟩, ?_, news, incidental, rfl⟩
  · rw [isTerminated_iff entering.coherent]
    nofun
  · simp [callState, isStoppedAt]

theorem attach_free_iff (settled : session.Settled) (rested : session.Rested)
    (live : session.debugger.control.state ≠ .terminated) (handle : Nat)
    (available : (session.isStoppedAt handle || session.isBlockedAt handle) = false)
    (interpreter : Interpreter) (record : ExceptionRecord) :
    (session.attach handle).1.Free (session.raisedCall handle interpreter record) ↔
      session.Released := by
  have attaching : Advances session (session.attach handle).1 := .single (.attach handle)
  have attached : (session.attach handle).1.Rested :=
    rested.still (rested.awake.attach handle) rfl rfl id
  constructor
  · intro free
    have listed := (Registry.attach_spec session.debugger.registry handle).1
    exact ⟨(Free.state free).2,
      (alone_of_free (attaching.settled settled) attached free listed available).1⟩
  · rintro ⟨begun, unstopped⟩
    have unheld : session.debugger.control.stopper = none := by
      rw [settled.coherent.holder live, unstopped, Option.map_none]
    refine Execution.Control.waitUntilRunnable_eq_true.mpr ⟨live, ?_⟩
    change session.debugger.control.blocks _ = false
    simp [Execution.Control.blocks, Execution.Control.heldByOther, begun, unheld]

theorem call_raises (settled : session.Settled) (rested : session.Rested)
    (live : session.debugger.control.state ≠ .terminated) {handle : Nat}
    (available : (session.isStoppedAt handle || session.isBlockedAt handle) = false)
    {interpreter : Interpreter} {run : Session → Session}
    (raises : run session =
      (session.attach handle).1.enter (session.raisedCall handle interpreter record)) :
    session.Raises (session.raisedCall handle interpreter record) record
      ((session.call handle run).1, .call (session.call handle run).2) := by
  have advances (idle : ∀ other ∈ session.calls, other.handle ≠ handle) :
      Advances session (run session) :=
    raises ▸ raise_advances settled.coherent idle interpreter record live
  have awake : (run session).Awake := raises ▸ raise_awake rested.awake handle live _
  have entering := (advances (idle_of_available (by simp [available]))).settled settled
  have settledAfter := (call_advances settled advances).settled settled
  have restedAfter := call_rested settled rested run advances awake
  have free := attach_free_iff settled rested live handle available interpreter record
  have called : session.call handle run =
      ((run session).settle, (run session).settle.callState handle) := by
    simp only [Session.call, available, Bool.false_eq_true, if_false]
  rw [called] at settledAfter restedAfter ⊢
  rw [raises] at entering settledAfter restedAfter ⊢
  refine ⟨fun released => ?_, fun held => ?_⟩
  · obtain ⟨still, halted, state, news, incidental, outbox⟩ :=
      enter_halts entering (free.mpr released) rfl
    obtain ⟨announced, new, attached⟩ := attach_spec session handle
    rw [still]
    refine ⟨congrArg StepResult.call state, halted, announced ++ news,
      List.forall_mem_append.mpr ⟨new, incidental⟩, ?_⟩
    rw [outbox, attached, List.append_assoc session.outbox]
  · have attached : (session.attach handle).1.Settled :=
      Advances.settled (.single (.attach handle)) settled
    have behind : session.debugger.control.blocks (session.attach handle).2.id = true := by
      by_contra unblocked
      refine held (free.mp (Execution.Control.waitUntilRunnable_eq_true.mpr ⟨live, ?_⟩))
      exact Bool.not_eq_true _ ▸ unblocked
    obtain ⟨entered, still, state⟩ := @enter_behind (session.attach handle).1
      (session.raisedCall handle interpreter record) attached live behind available
    have waits : session.raisedCall handle interpreter record ∈
        ((session.attach handle).1.enter
          (session.raisedCall handle interpreter record)).settle.blocked := by
      rw [still, entered]
      simp [block]
    refine ⟨?_, waits, fun more => run_halts settledAfter restedAfter rfl more waits⟩
    rw [still]
    exact congrArg StepResult.call state

theorem exception_armed (settled : session.Settled)
    (live : session.debugger.control.state ≠ .terminated) {kind : ExceptionKind}
    (armed : kind.filter ∈ session.debugger.exceptionFilters) (handle : Nat)
    (interpreter : Interpreter) (message : String) :
    session.exception handle interpreter kind message = (session.attach handle).1.enter
      (session.raisedCall handle interpreter (session.report kind.filter message false)) := by
  have running : session.isTerminated = false := by
    rwa [← Bool.not_eq_true, isTerminated_iff settled.coherent]
  have contained := List.contains_iff_mem.mpr armed
  simp only [exception, running, contained, Bool.not_true, Bool.or_self, Bool.false_eq_true,
    if_false]
  rfl

theorem exception_unarmed (settled : session.Settled) {kind : ExceptionKind}
    (unarmed : ¬(kind.filter ∈ session.debugger.exceptionFilters ∧
      session.debugger.control.state ≠ .terminated)) (handle : Nat) (interpreter : Interpreter)
    (message : String) :
    session.exception handle interpreter kind message = session.finish handle (some false) := by
  by_cases ends : session.debugger.control.state = .terminated
  · exact exception_over settled ends handle interpreter kind message
  · have absent : kind.filter ∉ session.debugger.exceptionFilters :=
      fun armed => unarmed ⟨armed, ends⟩
    simp [exception, absent]

theorem panic_live (settled : session.Settled)
    (live : session.debugger.control.state ≠ .terminated) (handle : Nat)
    (interpreter : Interpreter) (message : String) :
    session.panic handle interpreter message = (session.attach handle).1.enter
      (session.raisedCall handle interpreter (session.report "panic" message true)) := by
  have running : ¬session.isTerminated = true := by
    rwa [isTerminated_iff settled.coherent]
  simp only [panic, running]
  rfl

theorem call_returns (settled : session.Settled) (rested : session.Rested) {handle : Nat}
    (available : (session.isStoppedAt handle || session.isBlockedAt handle) = false)
    {value : Option Bool} {run : Session → Session}
    (returns : run session = session.finish handle value) :
    session.call handle run = (session.finish handle value, .done) := by
  have finished : (session.finish handle value).Settled :=
    Advances.settled (.single (.aside (.finish handle value))) settled
  have quiet : (session.finish handle value).Rested :=
    rested.still (rested.awake.frame rfl rfl rfl) rfl rfl id
  have state : (session.finish handle value).callState handle = .done := by
    obtain ⟨unstopped, unblocked⟩ := Bool.or_eq_false_iff.mp available
    simp only [isStoppedAt, isBlockedAt] at unstopped unblocked
    simp only [callState, isStoppedAt, isBlockedAt, finish, unstopped, unblocked,
      Bool.false_eq_true, if_false]
  simp only [call, available, Bool.false_eq_true, if_false, returns, quiet.settle_eq finished,
    state]

/-- The filters in force are those that the client has chosen last, and those of the settings if it
has chosen none. An exception stops its thread if its filter is among them when it is raised: at once,
or as soon as the program runs with no other thread stopped, unless the session is over before. Any
other exception returns. A panic stops its thread whatever the filters are. Telling that thread to go
on ends the session, which is over as soon as the thread is no longer stopped. -/
theorem exceptions_stop (steps : List Step) :
    let session := ({} : Session).run steps
    let filters := (chosenFilters (({} : Session).history steps)).getD
      session.debugger.config.settings.exceptionFilters
    (∀ handle interpreter message,
      (session.isStoppedAt handle || session.isBlockedAt handle) = false →
      (∀ kind, let result := session.perform (.exception handle interpreter kind message)
        if kind.filter ∈ filters ∧ session.debugger.control.state ≠ .terminated then
          let record := session.report kind.filter message false
          session.Raises (session.raisedCall handle interpreter record) record result
        else result = (session.finish handle (some false), .call .done)) ∧
      let result := session.perform (.panic handle interpreter message)
      if session.debugger.control.state = .terminated then
        result = (session.finish handle none, .call .done)
      else
        let record := session.report "panic" message true
        session.Raises (session.raisedCall handle interpreter record) record result) ∧
    ∀ stop record, session.stopped = some stop → stop.call.errand = .exception record →
      record.fatal = true →
      (∀ request command how, request.kind = .request →
        Command.ofName? request.command = some (.stopped command) →
        command.resumption? = some how →
        Arguments.read? Arguments.thread request = some stop.call.thread →
        (session.perform (.request request)).1.debugger.control.state = .terminated) ∧
      ∀ more, let later := session.run more
        later.stopped.map (·.call) = some stop.call ∨
          later.debugger.control.state = .terminated := by
  intro session filters
  have settled : session.Settled := run_settled steps
  have rested : session.Rested := run_rested steps
  have force : session.debugger.exceptionFilters = filters :=
    (unfolds_heed (run_unfolds steps) Debugger.heeds_new).filters
  refine ⟨fun handle interpreter message available => ⟨fun kind => ?_, ?_⟩,
    fun stop record held errand fatal =>
      ⟨fun _ _ _ => perform_resumes settled held errand fatal,
        fun more => run_endsWith settled errand fatal more (.inl (by rw [held]; rfl))⟩⟩
  · rw [← force]
    simp only [perform]
    split
    · rename_i armed
      exact call_raises settled rested armed.2 available
        (exception_armed settled armed.2 armed.1 handle interpreter message)
    · rename_i unarmed
      rw [call_returns settled rested available
        (exception_unarmed settled unarmed handle interpreter message)]
  · simp only [perform]
    split
    · rename_i ends
      rw [call_returns settled rested available
        (panic_over settled ends handle interpreter message)]
    · rename_i live
      exact call_raises settled rested live available
        (panic_live settled live handle interpreter message)

/-- Without any filter an error returns and a panic stops; going on from there ends the session. -/
example :
    let unfiltered : List Step := [
      .request { seq := 1, command := "configurationDone" },
      .request { seq := 2, command := "launch", arguments := some (.object []) },
      .request {
        seq := 3
        command := "setExceptionBreakpoints"
        arguments := some (.object [("filters", .array [])]) }]
    let error : Step := .exception 1 (.blank [64, 97] 0) .uncaught "lost"
    let panic : Step := .panic 1 (.blank [64, 97] 0) "lost"
    let proceed : Step := .request {
      seq := 4
      command := "continue"
      arguments := some (.object [("threadId", .ofNat 1)]) }
    (({} : Session).run (unfiltered ++ [error])).stopped.isNone ∧
      (({} : Session).run (unfiltered ++ [panic])).debugger.control.state = .stopped .exception ∧
      (({} : Session).run (unfiltered ++ [panic, proceed])).debugger.control.state =
        .terminated := by
  decide +kernel

end DebugAdapter.Session
