import DebugAdapter.Proofs.Session.Refusal

/-! The threads of the registry agree with the control: who is stopped, for which reason and on which
exception, and who is stepping. -/
namespace DebugAdapter

open Execution (Control StopReason)

structure Notice where
  thread : Nat
  reason : StopReason
  exception : Option ExceptionRecord

def Message.notice? : Message → Option Notice
  | .event (.stopped thread reason exception) => some { thread, reason, exception }
  | _ => none

def notices (messages : List Message) : List Notice :=
  messages.filterMap Message.notice?

/-- What a thread shows is what the control says of it, and what the client was told last. -/
structure Thread.Fits (thread : Thread) (control : Control) (last : Option Notice) : Prop where
  stopped : thread.phase = .stopped ↔ control.stopper = some thread.id
  stepping : thread.phase = .stepping ↔ control.step.map (·.thread) = some thread.id
  reason : control.stopper = some thread.id → ∃ reason, control.state = .stopped reason ∧
    thread.stopReason = some reason ∧ (thread.exception.isSome ↔ reason = .exception) ∧
    last = some { thread := thread.id, reason, exception := thread.exception }
  unhurt : control.stopper ≠ some thread.id → thread.exception = none

/-- The thread with an identifier is neither stopped nor stepping. -/
structure Execution.Control.Spares (control : Control) (id : Nat) : Prop where
  unheld : control.stopper ≠ some id
  still : control.step.map (·.thread) ≠ some id

theorem Execution.Control.Valid.spares {control : Control} {thread : Nat} (valid : control.Valid)
    (waits : control.waitUntilRunnable thread = none) : control.Spares thread := by
  have held : control.blocks thread = true := by
    unfold waitUntilRunnable at waits
    split at waits
    · contradiction
    · split at waits
      · assumption
      · contradiction
  rcases (Bool.or_eq_true _ _).mp held with initializing | other
  · have state : control.state = .initializing := by simpa using initializing
    have free := valid.stopper_none (by simp [state])
    have still := valid.step_none (by simp [state])
    exact ⟨by simp [free], by simp [still]⟩
  · obtain ⟨stopper, stops, different⟩ := (Option.any_eq_true _ _).mp other
    obtain ⟨reason, state⟩ := valid.stopped.mpr (by simp [stops])
    have still := valid.step_none (by simp [state])
    exact ⟨by simpa [stops] using different, by simp [still]⟩

namespace Thread.Fits

variable {thread : Thread} {control next : Control} {last : Option Notice}

theorem frame (fits : thread.Fits control last) (stopper : next.stopper = control.stopper)
    (step : next.step = control.step)
    (state : ∀ reason, control.state = .stopped reason → next.state = .stopped reason) :
    thread.Fits next last := by
  refine ⟨stopper ▸ fits.stopped, step ▸ fits.stepping, fun held => ?_, stopper ▸ fits.unhurt⟩
  obtain ⟨reason, stopped, told⟩ := fits.reason (stopper ▸ held)
  exact ⟨reason, state reason stopped, told⟩

theorem spared (fits : thread.Fits control last) (suspended : thread.phase = .suspended) :
    control.Spares thread.id :=
  ⟨fits.stopped.not.mp (by simp [suspended]), fits.stepping.not.mp (by simp [suspended])⟩

theorem running {steps : Bool} (unheld : control.stopper ≠ some thread.id)
    (stepping : steps = true ↔ control.step.map (·.thread) = some thread.id) :
    (thread.setRunning steps).Fits control last := by
  refine ⟨?_, ?_, fun held => absurd held unheld, fun _ => rfl⟩
  · simp only [setRunning, unheld, iff_false]
    split <;> simp
  · simp only [setRunning, ← stepping]
    split <;> simp_all

theorem awake (spares : control.Spares thread.id) : (thread.setRunning false).Fits control last :=
  running spares.unheld (by simp [spares.still])

theorem suspended (unhurt : thread.exception = none) (spares : control.Spares thread.id) :
    thread.setSuspended.Fits control last :=
  ⟨by simp [setSuspended, spares.unheld], by simp [setSuspended, spares.still],
    fun held => absurd held spares.unheld, fun _ => unhurt⟩

theorem halted {reason : StopReason} {exception : Option ExceptionRecord}
    (state : control.state = .stopped reason) (stopper : control.stopper = some thread.id)
    (still : control.step = none) (cause : exception.isSome ↔ reason = .exception) :
    (thread.setStopped reason exception).Fits control (some ⟨thread.id, reason, exception⟩) :=
  ⟨by simp [setStopped, stopper], by simp [setStopped, still],
    fun _ => ⟨reason, state, rfl, cause, rfl⟩, fun unheld => absurd stopper unheld⟩

theorem abandon {target : Execution.StepTarget} (fits : thread.Fits control last)
    (armed : control.step = some target) (free : control.stopper = none)
    (other : target.thread ≠ thread.id) :
    thread.Fits (Control.publish { control with state := .running, step := none }) last := by
  have spares : control.Spares thread.id := ⟨by simp [free], by simpa [armed] using other⟩
  exact ⟨fits.stopped, by simp [fits.stepping, spares.still], fun held => absurd held spares.unheld,
    fits.unhurt⟩

end Thread.Fits

theorem Call.StopsFor.cause {call : Call} {reason : StopReason}
    {exception : Option ExceptionRecord} (purpose : call.StopsFor reason exception) :
    exception.isSome ↔ reason = .exception := by
  unfold StopsFor at purpose
  split at purpose <;> simp [purpose]

theorem notices_append (messages others : List Message) :
    notices (messages ++ others) = notices messages ++ notices others :=
  List.filterMap_append

theorem notices_unmarked {messages : List Message}
    (unstopped : ∀ thread reason, .stopped thread reason ∉ marks messages) :
    notices messages = [] := by
  apply List.filterMap_eq_nil_iff.mpr
  intro message member
  match message with
  | .event (.stopped thread reason exception) =>
    exact absurd (marks_stopped member) (unstopped thread reason)
  | .event .initialized | .event .terminated | .event (.thread ..) | .event (.output _)
  | .event (.loadedSource ..) | .response .. => rfl

/-- All threads agree with the control, and a step is on a thread that has been seen. -/
structure Debugger.Phased (debugger : Debugger) (last : Option Notice) : Prop where
  fits : ∀ thread ∈ debugger.registry.threads, thread.Fits debugger.control last
  given : ∀ target, debugger.control.step = some target →
    target.thread ≤ debugger.registry.lastId

namespace Debugger.Phased

variable {debugger next : Debugger} {last : Option Notice}

theorem frame (phased : debugger.Phased last) (control : next.control = debugger.control)
    (registry : next.registry = debugger.registry) : next.Phased last :=
  ⟨control ▸ registry ▸ phased.fits, control ▸ registry ▸ phased.given⟩

theorem control (phased : debugger.Phased last) {control : Control}
    (stopper : control.stopper = debugger.control.stopper)
    (step : control.step = debugger.control.step)
    (state : ∀ reason, debugger.control.state = .stopped reason → control.state = .stopped reason) :
    ({ debugger with control } : Debugger).Phased last :=
  ⟨fun thread member => (phased.fits thread member).frame stopper step state,
    fun target armed => phased.given target (step ▸ armed)⟩

theorem release (phased : debugger.Phased last) : debugger.releaseIfReady.Phased last := by
  obtain ⟨control, same, rfl | ⟨_, _, done⟩⟩ := Debugger.releaseIfReady_spec debugger
  · exact phased.frame (by rw [same]) (by rw [same])
  · obtain ⟨initializing, rfl⟩ := Control.configurationDone_eq_some.mp done
    rw [same]
    exact phased.control rfl rfl (by simp [initializing])

theorem modify (phased : debugger.Phased last) (id : Nat) {change : Thread → Thread}
    (keeps : ∀ thread, ((change thread).id, (change thread).handle) = (thread.id, thread.handle))
    (fits : ∀ thread ∈ debugger.registry.threads, thread.id = id →
      (change thread).Fits debugger.control last) :
    (debugger.modifyThread id change).Phased last := by
  refine ⟨fun thread member => ?_, phased.given⟩
  obtain ⟨other, inside, rfl⟩ := Registry.of_mem_modify member keeps
  split
  · rename_i own
    exact fits other inside own
  · exact phased.fits other inside

theorem bare (bare : debugger.registry.threads = []) (still : debugger.control.step = none) :
    debugger.Phased last :=
  ⟨by simp [bare], by simp [still]⟩

end Debugger.Phased

namespace Session

variable {session next : Session} {request : Option Request} {last : Option Notice}

theorem Coherent.stopper_given (coherent : session.Coherent) {thread : Nat}
    (held : session.debugger.control.stopper = some thread) :
    thread ≤ session.debugger.registry.lastId := by
  have live : session.debugger.control.state ≠ .terminated := by
    intro ends
    simp [coherent.control.stopper_none (by simp [ends])] at held
  obtain ⟨stop, stopped, rfl⟩ :=
    Option.map_eq_some_iff.mp ((coherent.holder live).symm.trans held)
  exact (coherent.callers.known stop.call (by simp [calls, stopped])).given

theorem Aside.phased (aside : Aside session next) (phased : session.debugger.Phased last) :
    next.debugger.Phased last := by
  cases aside with
  | note | finish => exact phased
  | discover interpreter chunk =>
    obtain ⟨sources, callbacks, news, _, same⟩ := discover_spec session interpreter chunk
    rw [same]
    exact phased.frame rfl rfl

theorem attach_threads (session : Session) (handle : Nat) :
    (∀ thread ∈ (session.attach handle).1.debugger.registry.threads,
        thread ∈ session.debugger.registry.threads ∨
          thread = { id := session.debugger.registry.lastId + 1, handle }) ∧
      session.debugger.registry.lastId ≤ (session.attach handle).1.debugger.registry.lastId := by
  simp only [Session.attach, Debugger.attach, emit, send]
  cases known : session.debugger.registry.findByHandle? handle with
  | some thread =>
    rw [Registry.attach_known known]
    exact ⟨fun _ member => Or.inl member, Nat.le_refl _⟩
  | none =>
    obtain ⟨-, threads, lastId⟩ := Registry.attach_unknown known
    rw [threads, lastId]
    exact ⟨fun _ member => (List.mem_append.mp member).imp_right List.mem_singleton.mp,
      Nat.le_succ _⟩

theorem attach_phased (coherent : session.Coherent) (phased : session.debugger.Phased last)
    (handle : Nat) : (session.attach handle).1.debugger.Phased last := by
  obtain ⟨threads, lastId⟩ := attach_threads session handle
  refine ⟨fun thread member => ?_, fun target armed => Nat.le_trans (phased.given target armed) lastId⟩
  rcases threads thread member with old | rfl
  · exact phased.fits thread old
  · -- A new thread has an identifier of its own, so the control cannot mean it.
    have spares : session.debugger.control.Spares (session.debugger.registry.lastId + 1) := by
      refine ⟨fun held => ?_, fun armed => ?_⟩
      · have given := coherent.stopper_given held
        omega
      · obtain ⟨target, step, same⟩ := Option.map_eq_some_iff.mp armed
        have given := phased.given target step
        omega
    exact @Thread.Fits.awake ⟨_, handle, .running, none, none⟩ _ _ spares

theorem stop_phased (phased : session.debugger.Phased last) {call : Call}
    (before after : List Call) {reason : StopReason} {exception : Option ExceptionRecord}
    {control : Control} (unheld : session.debugger.control.stopper = none)
    (enters : session.debugger.control.Enters call.thread reason control)
    (purpose : call.StopsFor reason exception) :
    (Session.stop
      { session with
        debugger := { session.debugger with control }
        blocked := before ++ after } call reason exception).debugger.Phased
      (some ⟨call.thread, reason, exception⟩) := by
  refine ⟨fun thread member => ?_, fun target armed => ?_⟩
  · obtain ⟨other, inside, rfl⟩ := Registry.of_mem_update member fun _ => by split <;> rfl
    change Thread.Fits _ control _
    split
    · rename_i own
      rw [← own]
      exact .halted enters.state (own ▸ enters.stopper) enters.still purpose.cause
    · rename_i different
      refine .suspended ((phased.fits other inside).unhurt (by simp [unheld])) ⟨?_, ?_⟩
      · simpa [enters.stopper] using fun same => different same.symm
      · simp [enters.still]
  · cases enters.still.symm.trans armed

/-- Either nobody stops, and the client is told of no stop, or it is told of the one there is. -/
theorem Advance.phased (advance : Advance session next) (coherent : session.Coherent)
    (phased : session.debugger.Phased (notices session.outbox).getLast?) :
    next.debugger.Phased (notices next.outbox).getLast? := by
  have still (quiet : Quiet session next)
      (kept : next.debugger.Phased (notices session.outbox).getLast?) :
      next.debugger.Phased (notices next.outbox).getLast? := by
    obtain ⟨news, incidental, outbox⟩ := quiet.outbox
    have untold : notices news = [] := notices_unmarked (by simp [incidental.unmarked])
    rwa [outbox, notices_append, untold, List.append_nil]
  cases advance with
  | aside aside => exact still aside.quiet (aside.phased phased)
  | attach handle => exact still (attach_quiet session handle) (attach_phased coherent phased handle)
  | arrive | leave => exact phased
  | hit => exact phased.frame rfl rfl
  | say call text =>
    have untold : notices [.event (.output text)] = [] := rfl
    simpa only [emit, send, List.map_cons, List.map_nil, notices_append, untold,
      List.append_nil] using phased
  | suspend call waits held =>
    refine phased.modify call.thread (fun _ => rfl) fun thread member own => ?_
    have spares : session.debugger.control.Spares thread.id := own ▸ coherent.control.spares held
    exact .suspended ((phased.fits thread member).unhurt spares.unheld) spares
  | wake call =>
    cases errand : call.errand with
    | exception record =>
      have same : Session.wake session.debugger call = session.debugger := by
        simp only [Session.wake, errand]
      simpa only [modifyDebugger, same] using phased
    | line line source =>
      have same : Session.wake session.debugger call =
          session.debugger.modifyThread call.thread fun thread =>
            if thread.phase = .suspended then thread.setRunning false else thread := by
        simp only [Session.wake, errand]
      simp only [modifyDebugger, same]
      refine phased.modify call.thread (fun _ => by split <;> rfl) fun thread member _ => ?_
      have fits := phased.fits thread member
      split
      · rename_i suspended
        exact .awake (fits.spared suspended)
      · exact fits
  | stop call before after reason exception control waits free enters purpose =>
    have stopped := stop_phased phased before after
      (coherent.alone (by simp [waits]) free).2 enters purpose
    obtain ⟨registry, output, news, incidental, _, _, same⟩ := stop_spec { session with
      debugger := { session.debugger with control }
      blocked := before ++ after } call reason exception
    have untold : notices news = [] := notices_unmarked (by simp [incidental.unmarked])
    have told : notices [.event (.stopped call.thread reason exception)] =
        [⟨call.thread, reason, exception⟩] := rfl
    rw [same] at stopped ⊢
    rwa [notices_append, notices_append, untold, told, List.append_nil, List.getLast?_concat]

theorem Advances.phased (advances : Advances session next) (coherent : session.Coherent)
    (phased : session.debugger.Phased (notices session.outbox).getLast?) :
    next.debugger.Phased (notices next.outbox).getLast? := by
  induction advances with
  | refl => exact phased
  | tail first last ih => exact last.phased (Advances.coherent first coherent) ih

/-- When all threads run on, the one that was stopped is the only one that may be stepping. -/
theorem runThreads_phased {debugger : Debugger} (valid : debugger.control.Valid)
    (unheld : debugger.control.stopper = none) (id : Nat) (given : id ≤ debugger.registry.lastId)
    (own : ∀ target, debugger.control.step = some target → target.thread = id) :
    (runThreads debugger id).Phased last := by
  refine ⟨fun thread member => ?_, fun target armed => own target armed ▸ given⟩
  obtain ⟨other, _, rfl⟩ := Registry.of_mem_update member fun _ => rfl
  refine .running (by simp [runThreads, unheld]) ?_
  change _ ↔ debugger.control.step.map (·.thread) = some other.id
  cases armed : debugger.control.step with
  | none =>
    have still : ∀ kind, debugger.control.state ≠ .stepping kind := by
      intro kind
      simp [valid.stepping kind, armed]
    split <;> simp_all
  | some target =>
    have state := (valid.stepping target.kind).mpr (by simp [armed])
    simp [state, own target armed, eq_comm]

theorem detach_phased (coherent : session.Coherent) (phased : session.debugger.Phased last)
    (handle : Nat) (announce : Bool) :
    (session.detach handle announce).1.debugger.Phased last := by
  cases detached : session.debugger.detach handle announce with
  | none =>
    simp only [Session.detach, detached]
    exact phased
  | some result =>
    obtain ⟨debugger, events⟩ := result
    obtain ⟨⟨registry, gone, left, rfl⟩, _⟩ := Debugger.detach_spec detached
    obtain ⟨known, fewer, lastId⟩ := Registry.detach_eq_some left
    obtain ⟨member, owner⟩ := Registry.findByHandle_spec known
    have others : ∀ thread ∈ session.debugger.registry.threads, thread.handle ≠ handle →
        gone.id ≠ thread.id := by
      intro thread inside different same
      have listed := Registry.mem_roster inside
      rw [← same] at listed
      exact different ((coherent.callers.registry.owner (Registry.mem_roster member) listed).trans
        owner)
    simp only [Session.detach, detached, emit, send]
    cases abandoned : session.debugger.control.abandonStep gone.id with
    | none =>
      refine ⟨fun thread inside => ?_, lastId ▸ phased.given⟩
      rw [fewer] at inside
      exact phased.fits thread (List.mem_filter.mp inside).1
    | some control =>
      obtain ⟨⟨target, armed, own⟩, rfl⟩ :=
        Control.abandonStep_spec coherent.control abandoned
      have state := (coherent.control.stepping target.kind).mpr (by simp [armed])
      have free := coherent.control.stopper_none (by simp [state])
      refine ⟨fun thread inside => ?_, by simp⟩
      obtain ⟨inside, different⟩ := List.mem_filter.mp (fewer ▸ inside)
      exact (phased.fits thread inside).abandon armed free
        (own ▸ others thread inside (by simpa using different))

/-- No act stops a thread, so what the client was told last stays true of those that it leaves. -/
theorem Act.phased (act : Act session request next) (coherent : session.Coherent)
    (phased : session.debugger.Phased (notices session.outbox).getLast?) :
    next.debugger.Phased (notices next.outbox).getLast? := by
  obtain ⟨sent, follows⟩ := act.follows coherent
  have after := act.coherent coherent
  rw [follows.outbox, notices_append, notices_unmarked follows.unstopped, List.append_nil]
  generalize (notices session.outbox).getLast? = last at phased ⊢
  cases act with
  | aside aside => exact aside.phased phased
  | refuse | evaluate => exact phased
  | defer | decline | reply => exact phased.frame rfl rfl
  | adjust taken command change _ _ adjusts _ carried =>
    obtain ⟨_, _, control, _, _, _, _, _, same, asked, _⟩ :=
      Debugger.carryOut_adjusts carried adjusts
    have adjusted : ({ session.debugger with control } : Debugger).Phased last := by
      rcases asked with rfl | ⟨_, paused⟩
      · exact phased
      · obtain ⟨_, _, rfl⟩ := Control.requestPause_eq_some.mp paused
        exact phased.control rfl rfl fun _ => id
    simp only [apply, emit, send, answer, same]
    exact adjusted.frame rfl rfl
  | start taken command change _ _ _ _ started =>
    obtain ⟨_, config, events, _, _, _, _, _, rfl⟩ := Debugger.start_spec started
    exact Debugger.Phased.release (phased.frame rfl rfl)
  | configure taken change _ _ _ done =>
    obtain ⟨_, rfl⟩ := Debugger.configurationDone_spec done
    exact Debugger.Phased.release (phased.frame rfl rfl)
  | close taken command exit =>
    exact .bare session.debugger.teardown_cleared.1
      (after.control.step_none (by simp [(close_ended session taken exit).state]))
  | shutdown =>
    exact .bare session.debugger.teardown_cleared.1
      (after.control.step_none (by simp [(shutdown_ended session).state]))
  | resume deferred rest stop how body control waiting held _ resumed =>
    obtain ⟨reason, state⟩ := coherent.queued.state (by simp [waiting])
    have free := (Control.resume_runs state resumed).2.2.2
    have given := (coherent.callers.known stop.call (by simp [calls, held])).given
    exact runThreads_phased (Control.valid_resume coherent.control resumed) free stop.call.thread
      given (Control.resume_owner coherent.control state resumed)
  | detach handle announce => exact detach_phased coherent phased handle announce
  | capture category bytes attribution =>
    obtain ⟨output, news, _, same⟩ := capture_spec session category bytes attribution
    rw [same]
    exact phased.frame rfl rfl
  | reconfigure change =>
    obtain ⟨config, mapping, sources, filters, news, _, same⟩ := configure_spec session change
    rw [same]
    exact phased.frame rfl rfl
  | release stop ends held =>
    have given := (coherent.callers.known stop.call (by simp [calls, held])).given
    have free := coherent.control.stopper_none (by simp [ends])
    have still := coherent.control.step_none (by simp [ends])
    exact runThreads_phased coherent.control free stop.call.thread given (by simp [still])
  | dismiss => exact phased

theorem Acts.phased {taken : List Request} (acts : Acts session taken next)
    (coherent : session.Coherent)
    (phased : session.debugger.Phased (notices session.outbox).getLast?) :
    next.debugger.Phased (notices next.outbox).getLast? := by
  induction acts with
  | refl => exact phased
  | tail acts act ih => exact act.phased (acts.coherent coherent) ih

theorem run_phased (steps : List Step) :
    (({} : Session).run steps).debugger.Phased
      (notices (({} : Session).run steps).outbox).getLast? := by
  refine run_induction (P := fun _ session =>
    session.debugger.Phased (notices session.outbox).getLast?) (.bare rfl rfl) ?_ steps
  intro _ session step settled phased
  obtain ⟨_, middle, acts, middleSettled, advances, _⟩ := perform_moves settled step
  exact advances.phased middleSettled.coherent (acts.phased settled.coherent phased)

theorem Coherent.serves (coherent : session.Coherent)
    (stopped : session.debugger.control.isStopped none = true) :
    ¬session.isTerminated = true ∧ ∃ stop, session.stopped = some stop ∧
      session.debugger.control.stopper = some stop.call.thread := by
  unfold Control.isStopped at stopped
  split at stopped
  · rename_i reason thread state stopper
    have live : session.debugger.control.state ≠ .terminated := by simp [state]
    have holder := coherent.holder live
    obtain ⟨stop, held, _⟩ := Option.map_eq_some_iff.mp (holder.symm.trans stopper)
    exact ⟨(isTerminated_iff coherent).not.mpr live, stop, held, by rw [holder, held]; rfl⟩
  · contradiction

/-- A question to the stopped thread is answered, and that is all that is sent. -/
theorem defer_answers {stop : Stop} (coherent : session.Coherent)
    (drained : session.debugger.queue = [])
    (stopped : session.debugger.control.isStopped none = true)
    (held : session.stopped = some stop) (deferred : Deferred)
    (stays : deferred.command.resumption? = none) (other : deferred.command ≠ .stackTrace) :
    (session.defer deferred).serve.settle.outbox = session.outbox ++
      [.response deferred.request.seq deferred.request.command
        ((session.debugger.inspect stop deferred).outcome.map (·.body))] := by
  obtain ⟨live, _, _, stopper⟩ := coherent.serves stopped
  have inspects := Debugger.inspect_inspects session.debugger stop other
  rw [defer_asks drained held]
  generalize (session.debugger.inspect stop deferred).callbacks = questions
  generalize (session.debugger.inspect stop deferred).outcome = outcome at inspects ⊢
  cases inspects with
  | fail failure =>
    have rests := @settle_held ((session.note questions).reply stop deferred.request
      (.error failure)) live (Or.inl (by simp [reply, answer, send, note, stopper]))
    rw [rests]
    rfl
  | answer body framesFetched =>
    have rests := @settle_held ((session.note questions).reply stop deferred.request
      (.ok { debugger := session.debugger, body, framesFetched })) live
      (Or.inl (by simp [reply, answer, send, emit, stopper]))
    rw [rests]
    simp only [reply, answer, emit, send, note, List.map_nil, List.append_nil]
    rfl
  | resume how body resumes => cases stays.symm.trans resumes

theorem request_answers {stop : Stop} {taken : Request} {command : StoppedCommand}
    (settled : session.Settled) (asked : taken.kind = .request)
    (named : Command.ofName? taken.command = some (.stopped command))
    (stopped : session.debugger.control.isStopped none = true)
    (held : session.stopped = some stop) (stays : command.resumption? = none)
    (other : command ≠ .stackTrace) :
    (session.request taken).1.outbox = session.outbox ++ [.response taken.seq taken.command
      ((session.debugger.inspect stop ⟨taken, command⟩).outcome.map (·.body))] := by
  have live := (settled.coherent.serves stopped).1
  have defers : (session.handle taken).1 = session.defer ⟨taken, command⟩ := by
    rw [handle_deferred asked named (Bool.eq_false_of_not_eq_true live) stopped]
  simp only [Session.request, defers]
  exact defer_answers settled.coherent settled.drained stopped held ⟨taken, command⟩ stays other

theorem request_unserved (settled : session.Settled) (rested : session.Rested)
    {taken : Request} {command : StoppedCommand} (asked : taken.kind = .request)
    (named : Command.ofName? taken.command = some (.stopped command))
    (unstopped : ¬session.debugger.control.isStopped none = true) :
    ∃ failure, (session.request taken).1 = session.answer taken (.error failure) := by
  have refused : ∃ failure, (session.handle taken).1 = session.answer taken (.error failure) := by
    cases session.handling taken with
    | other kind _ => exact absurd asked kind
    | unknown _ _ refused | late _ _ _ _ _ refused | unserved _ _ _ _ _ refused =>
      exact ⟨_, congrArg Prod.fst refused⟩
    | control _ _ same => cases named.symm.trans same
    | deferred _ _ _ _ stopped => exact absurd stopped unstopped
  obtain ⟨failure, refused⟩ := refused
  have still := refused_settle settled rested [] taken failure
  have quiet : session.note [] = session := by simp only [note, List.append_nil]
  rw [quiet] at still
  have served := @serve_drained (session.answer taken (.error failure)) settled.drained
  exact ⟨failure, by simp only [Session.request, refused, served, still]⟩

/-- A registered thread is stopped on an exception, and the client was told so last. -/
structure Raised (session : Session) (thread : Thread) (record : ExceptionRecord) : Prop where
  listed : thread ∈ session.debugger.registry.threads
  stopper : session.debugger.control.stopper = some thread.id
  state : session.debugger.control.state = .stopped .exception
  holds : thread.exception = some record
  told : (notices session.outbox).getLast? =
    some { thread := thread.id, reason := .exception, exception := some record }

theorem raised_of (phased : session.debugger.Phased (notices session.outbox).getLast?)
    {thread : Thread} (listed : thread ∈ session.debugger.registry.threads)
    {record : ExceptionRecord} (holds : thread.exception = some record) :
    session.Raised thread record := by
  have fits := phased.fits thread listed
  have stopper : session.debugger.control.stopper = some thread.id := by
    by_contra unheld
    simp [fits.unhurt unheld] at holds
  obtain ⟨reason, state, _, cause, told⟩ := fits.reason stopper
  obtain rfl := cause.mp (by simp [holds])
  exact ⟨listed, stopper, state, holds, holds ▸ told⟩

def stackOf (session : Session) (stop : Stop) : List (String × Nat) :=
  stop.call.interpreter.stackFrames.map fun frame =>
    (frame.name, session.debugger.coordinates.clientLine frame.line)

theorem Raised.found {thread : Thread} {record : ExceptionRecord}
    (raised : session.Raised thread record)
    (phased : session.debugger.Phased (notices session.outbox).getLast?) :
    ∃ other, session.debugger.registry.find? thread.id = some other ∧
      other.id = thread.id ∧ other.exception = some record := by
  have found : session.debugger.registry.find? thread.id = some thread :=
    Registry.find?_eq_some.mpr ⟨raised.listed, rfl⟩
  obtain ⟨_, _, _, _, told⟩ := (phased.fits thread raised.listed).reason raised.stopper
  have notice := Option.some.inj (told.symm.trans raised.told)
  exact ⟨thread, found, rfl, (Notice.mk.inj notice).2.2⟩

/-- The exception is told of the thread that is stopped on it, and of no other. -/
theorem inspectException_iff
    (phased : session.debugger.Phased (notices session.outbox).getLast?) {stop : Stop}
    (holder : session.debugger.control.stopper = some stop.call.thread) (id : Nat) (body : Body) :
    (session.debugger.inspectException stop id).outcome.map (·.body) = .ok body ↔
      ∃ thread record, session.Raised thread record ∧ thread.id = id ∧
        body = .exception record (some (session.stackOf stop)) := by
  constructor
  · intro answers
    unfold Debugger.inspectException at answers
    split at answers
    · contradiction
    · rename_i thread found
      split at answers
      · contradiction
      · rename_i record holds
        obtain ⟨listed, same⟩ := Registry.find?_eq_some.mp found
        have raised := raised_of phased listed holds
        have own : thread.id = stop.call.thread :=
          Option.some.inj (raised.stopper.symm.trans holder)
        rw [if_pos own] at answers
        exact ⟨thread, record, raised, same, (Except.ok.inj answers).symm⟩
  · rintro ⟨thread, record, raised, rfl, rfl⟩
    obtain ⟨other, found, same, holds⟩ := raised.found phased
    have own : other.id = stop.call.thread :=
      same.trans (Option.some.inj (raised.stopper.symm.trans holder))
    simp only [Debugger.inspectException, found, holds, if_pos own]
    rfl

theorem exceptionInfo_iff (settled : session.Settled) (rested : session.Rested)
    (phased : session.debugger.Phased (notices session.outbox).getLast?) (taken : Request)
    (asked : taken.kind = .request) (named : taken.command = "exceptionInfo") :
    ∃ outcome, (session.request taken).1.outbox =
        session.outbox ++ [.response taken.seq taken.command outcome] ∧
      ∀ body, outcome = .ok body ↔ ∃ thread record stop, session.Raised thread record ∧
        session.stopped = some stop ∧
        Arguments.read? Arguments.thread taken = some thread.id ∧
        body = .exception record (some (session.stackOf stop)) := by
  have command : Command.ofName? taken.command = some (.stopped .exceptionInfo) := by
    rw [named]
    rfl
  by_cases stopped : session.debugger.control.isStopped none = true
  · obtain ⟨_, stop, held, holder⟩ := settled.coherent.serves stopped
    refine ⟨_, request_answers settled asked command stopped held rfl (by simp), fun body => ?_⟩
    simp only [Debugger.inspect, Debugger.withArguments]
    cases read : Arguments.read? Arguments.thread taken with
    | none => simp [Inspected.fail, Except.map]
    | some id =>
      rw [inspectException_iff phased holder]
      constructor
      · rintro ⟨thread, record, raised, rfl, same⟩
        exact ⟨thread, record, stop, raised, held, rfl, same⟩
      · rintro ⟨thread, record, other, raised, also, own, same⟩
        cases held.symm.trans also
        exact ⟨thread, record, raised, (Option.some.inj own).symm, same⟩
  · obtain ⟨failure, refused⟩ := request_unserved settled rested asked command stopped
    refine ⟨.error failure, by simp only [refused, answer, send], fun body => ?_⟩
    constructor
    · intro answers
      contradiction
    · rintro ⟨thread, record, stop, raised, _⟩
      exact absurd (by simp [Control.isStopped, raised.state, raised.stopper]) stopped

/-- Between steps the phase of every registered thread is what the control says of it: it is stopped
if and only if it is the stopper, and then for the reason of the state, it is stepping if and only if
a step is armed for it, and it holds an exception if and only if it is stopped on one. The exception
is told of that thread and of no other, and it is the one that the client heard of when it stopped. -/
theorem phases_agree (steps : List Step) :
    let session := ({} : Session).run steps
    let control := session.debugger.control
    (∀ thread ∈ session.debugger.registry.threads,
      (thread.phase = .stopped ↔ control.stopper = some thread.id) ∧
      (thread.phase = .stopped →
        ∃ reason, control.state = .stopped reason ∧ thread.stopReason = some reason) ∧
      (thread.phase = .stepping ↔ control.step.map (·.thread) = some thread.id) ∧
      (thread.exception.isSome ↔
        control.stopper = some thread.id ∧ control.state = .stopped .exception)) ∧
    ∀ seq arguments, let request : Request := { seq, command := "exceptionInfo", arguments }
      ∃ outcome, (session.perform (.request request)).1.outbox =
          session.outbox ++ [.response seq "exceptionInfo" outcome] ∧
        ∀ body, outcome = .ok body ↔ ∃ thread record stop, session.Raised thread record ∧
          session.stopped = some stop ∧
          Arguments.read? Arguments.thread request = some thread.id ∧
          body = .exception record (some (session.stackOf stop)) := by
  intro session control
  have phased : session.debugger.Phased (notices session.outbox).getLast? := run_phased steps
  refine ⟨fun thread listed => ?_, fun seq arguments =>
    exceptionInfo_iff (run_settled steps) (run_rested steps) phased
      { seq, command := "exceptionInfo", arguments } rfl rfl⟩
  have fits := phased.fits thread listed
  refine ⟨fits.stopped, fun stopped => ?_, fits.stepping, ?_⟩
  · obtain ⟨reason, state, shown, _⟩ := fits.reason (fits.stopped.mp stopped)
    exact ⟨reason, state, shown⟩
  · constructor
    · intro hurt
      obtain ⟨record, holds⟩ := Option.isSome_iff_exists.mp hurt
      have raised := raised_of phased listed holds
      exact ⟨raised.stopper, raised.state⟩
    · rintro ⟨held, state⟩
      obtain ⟨reason, same, _, cause, _⟩ := fits.reason held
      exact cause.mpr (by simpa using same.symm.trans state)

end Session
end DebugAdapter
